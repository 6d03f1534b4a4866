import Uio.Umux.Birth
import Uio.Umux.Flags
import Uio.Umux.Wakeful

/-!
How a flush is forgotten. Every entry of the round-robin list counts against the
budget of a pass, also one that has nothing to send. Streams that are reset while
the transport refuses frames leave such entries behind a stream that waits. When
that stream is reset as well, the next pass spends its budget on the entries,
writes nothing, and asks for no other pass, whatever waits behind them.
-/
namespace UmuxJam
open Interleaving UmuxFrame UmuxOutbox UmuxSession UmuxMachine UmuxSettings UmuxStranded UmuxWakeful
open UmuxLifecycle UmuxTimers UmuxTurn UmuxInbound UmuxOutbound UmuxEdits
open Function (update_of_ne update_self)
variable {s : Session} (threads : List (List Section)) {ids : List Nat} {r : Ref}

theorem flushLoop_spent (drainObs : Bool) (streams : Table) (budget : Nat) (answers : List Answer)
    (b : Queues) (c : Conn) (quiet : b.control = []) (long : budget ≤ b.pending.length)
    (stale : ∀ id ∈ b.pending.take budget, ¬Works streams b.tx id) :
    ∃ q : Queues, flushLoop drainObs streams budget answers b c = (⟨q, c⟩, none) ∧
      q.control = [] ∧ q.finFlushed = b.finFlushed ∧ q.pending = b.pending.drop budget ∧
        ∀ r, Waits (q.tx r) ↔ Waits (b.tx r) := by
  induction budget generalizing answers b with
  | zero => exact ⟨b, rfl, quiet, rfl, rfl, fun _ => Iff.rfl⟩
  | succ budget ih =>
    have marked := markGoAway_same b
    simp only [flushLoop]
    rw [← marked.1] at quiet
    rw [← marked.2.1] at long
    rw [← marked.2.1, ← marked.2.2] at stale
    have finished : (markGoAway b).finFlushed = b.finFlushed := by
      unfold markGoAway
      split <;> rfl
    rw [← marked.2.1, ← marked.2.2, ← finished]
    have found := headOf_found streams (markGoAway b)
    generalize markGoAway b = b at *
    have worksNot : ∀ {id rest}, b.pending = id :: rest → ¬Works streams b.tx id := by
      intro id rest first
      refine stale id ?_
      rw [first, List.take_succ_cons]
      exact List.mem_cons_self
    have later : ∀ {id rest}, b.pending = id :: rest → ∀ k ∈ rest.take budget,
        ¬Works streams b.tx k := by
      intro id rest first k member
      refine stale k ?_
      rw [first, List.take_succ_cons]
      exact List.mem_cons_of_mem _ member
    cases head : headOf streams b with
    | empty =>
      rw [head] at found
      rw [found.2] at long
      exact absurd long (Nat.not_succ_le_zero budget)
    | gone =>
      rw [head] at found
      obtain ⟨-, id, rest, first, -⟩ := found
      have tail : b.popPending.pending = rest := by simp [Queues.popPending, first]
      rw [first, List.length_cons] at long
      obtain ⟨q, done, control, fins, pending, same⟩ := ih answers b.popPending quiet
        (by rw [tail]; omega) (by rw [tail]; exact later first)
      exact ⟨q, done, control, fins, by rw [pending, tail, first, List.drop_succ_cons], same⟩
    | stale r =>
      rw [head] at found
      obtain ⟨-, id, rest, first, -⟩ := found
      have tail : (unqueue r b).pending = rest := by
        simp [unqueue, Queues.setTx, Queues.popPending, first]
      rw [first, List.length_cons] at long
      obtain ⟨q, done, control, fins, pending, same⟩ := ih answers (unqueue r b) quiet
        (by rw [tail]; omega) (by
          rw [tail]
          rintro k member ⟨p, here, waits⟩
          exact later first k member ⟨p, here, (unqueue_waits b r p).mp waits⟩)
      exact ⟨q, done, control, fins, by rw [pending, tail, first, List.drop_succ_cons],
        fun p => (same p).trans (unqueue_waits b r p)⟩
    | control f =>
      rw [head] at found
      obtain ⟨rest, queued⟩ := found
      rw [quiet] at queued
      cases queued
    | fin id r =>
      rw [head] at found
      obtain ⟨-, rest, first, here, -, fin⟩ := found
      exact absurd ⟨r, here, .inr fin⟩ (worksNot first)
    | data id r f =>
      rw [head] at found
      obtain ⟨-, rest, more, first, here, out⟩ := found
      exact absurd ⟨r, here, .inl (by rw [out]; exact List.cons_ne_nil f more)⟩ (worksNot first)

def client : Endpoint := endpoint {} true

/-- Nothing was received: no budget is charged and no peer has ended its direction. -/
structure Still (s : Session) : Prop where
  draining : s.status.draining = false
  held : s.inbox.readHeld = false
  empty : s.inbox.pendingBytes = 0
  peers : ∀ r < s.reg.fresh, (s.life r).peerFIN = false

/-- The sections that, on a still session, leave the table, the queues and the
    transport alone. -/
def calm (s : Session) : Section → Bool
  | .armNotLaterThan _ | .emitDrained | .rearmTimer | .rearmScan _ | .rearmSubmit _ | .answer _ _
  | .resetStream _ _ | .releaseInbound _ | .deliverClose _ _ | .maybeFinishDrain | .runWakes
  | .drainCloses | .turnEnd => true
  | .tryFinish r => r < s.reg.fresh
  | .requestFlush => s.box.conn.flushReq
  | .closeWriteDone r => s.box.conn.flushReq && (r < s.reg.fresh : Bool)
  | _ => false

def cost : Section → Nat
  | .closeWriteDone _ => 6
  | .rearmTimer | .resetStream _ _ => 3
  | .rearmScan _ => 2
  | _ => 1

structure Calmed (s s' : Session) : Prop where
  reg : s'.reg = s.reg
  box : s'.box = s.box
  status : s'.status = s.status
  ended : s'.ended = s.ended
  turnErr : s'.turnErr = s.turnErr
  busy : s.busy = false → s'.busy = false
  still : Still s'

structure Blocked (c : Conn) : Prop where
  working : c.failed = false
  open_ : c.closing = none
  unsent : 0 < c.unsent
  asked : c.flushReq = true
  honest : c.refusedIdle = false

/-- The oracle of a section whose control frame is taken and whose next frame is not. -/
def refuses : Oracle := { answers := [.accept 0, .overflow] }

/-- The list begins with stream 0, whose FIN the transport refuses, and goes on with
    `ids`; the table holds stream 0 and `more`. -/
structure Jam (ids : List Nat) (more : List (Sigma fun _ : Nat => Ref)) (s : Session) : Prop where
  still : Still s
  mu : s.time.timerMu = false
  turn : s.busy = false ∧ s.ended = false
  opened : s.status.closed = false ∧ s.status.goAway = false
  streams : s.reg.streams.entries = more ++ [⟨1, 0⟩]
  fresh : 0 < s.reg.fresh
  nextID : s.reg.nextID = 2 * ids.length + 3
  silent : s.box.goAwaySent = false ∧ s.box.control = []
  finished : s.box.finFlushed = []
  pending : s.box.pending = 1 :: ids
  first : s.box.tx 0 = ⟨[], true, .queued⟩
  older : ∀ id ∈ ids, 1 < id ∧ id < 2 * ids.length + 3

theorem Calmed.trans {s s₁ s' : Session} (first : Calmed s s₁) (second : Calmed s₁ s') :
    Calmed s s' :=
  ⟨second.reg.trans first.reg, second.box.trans first.box, second.status.trans first.status,
    second.ended.trans first.ended, second.turnErr.trans first.turnErr,
    second.busy ∘ first.busy, second.still⟩

theorem calm_alike {s s' : Session} (alike : Calmed s s') : calm s' = calm s := by
  funext a
  cases a <;> simp only [calm, alike.reg, alike.box]

theorem tryFinish_still (cfg : Endpoint) (still : Still s)
    (old : r < s.reg.fresh) : tryFinish cfg s r = (s, []) := by
  unfold tryFinish
  rw [if_pos]
  exact .inr (by simp [unfinished, still.peers r old])

theorem calmed_of {s s' : Session} (still : Still s) (reg : s'.reg = s.reg) (box : s'.box = s.box)
    (status : s'.status = s.status) (turn : s'.ended = s.ended ∧ s'.turnErr = s.turnErr)
    (busy : s.busy = false → s'.busy = false)
    (budget : s'.inbox.readHeld = s.inbox.readHeld ∧ s'.inbox.pendingBytes = 0)
    (peers : ∀ r, (s'.life r).peerFIN = (s.life r).peerFIN) : Calmed s s' := by
  refine ⟨reg, box, status, turn.1, turn.2, busy, ?_, budget.1.trans still.held, budget.2, ?_⟩
  · rw [status]
    exact still.draining
  · intro r old
    rw [reg] at old
    exact (peers r).trans (still.peers r old)

theorem calm_exec (still : Still s) (c : Oracle) {a : Section} (calmed : calm s a = true) :
    Calmed s (exec client c a s).1 ∧ (exec client c a s).2.all (calm s) = true ∧
      ((exec client c a s).2.map cost).sum < cost a := by
  have same : Calmed s s := calmed_of still rfl rfl rfl ⟨rfl, rfl⟩ id ⟨rfl, still.empty⟩ fun _ => rfl
  have timed : ∀ t, Calmed s { s with time := t } := fun _ =>
    calmed_of still rfl rfl rfl ⟨rfl, rfl⟩ id ⟨rfl, still.empty⟩ fun _ => rfl
  cases a
  case armNotLaterThan moment =>
    simp only [exec, armNotLaterThan]
    (repeat' split) <;> exact ⟨timed _, rfl, Nat.zero_lt_one⟩
  case emitDrained => exact ⟨same, rfl, Nat.zero_lt_one⟩
  case rearmTimer => exact ⟨timed _, rfl, by simp [exec, rearmTimer, cost]⟩
  case rearmScan now => exact ⟨same, rfl, by simp [exec, rearmScan, cost]⟩
  case rearmSubmit next => exact ⟨timed _, rfl, Nat.zero_lt_one⟩
  case answer r result =>
    simp only [exec, answer]
    split
    · exact ⟨same, rfl, Nat.zero_lt_one⟩
    · exact ⟨calmed_of still rfl rfl rfl ⟨rfl, rfl⟩ id ⟨rfl, still.empty⟩ fun _ => rfl, rfl,
        Nat.zero_lt_one⟩
  case resetStream r cause =>
    simp only [exec, resetStream]
    split
    · exact ⟨same, rfl, by simp [cost]⟩
    · exact ⟨calmed_of still rfl rfl rfl ⟨rfl, rfl⟩ id ⟨rfl, still.empty⟩
        (UmuxFlags.update_view Life.peerFIN (by rfl)), rfl, by simp [cost]⟩
  case releaseInbound n =>
    have drained : s.inbox.pendingBytes - n = 0 := by rw [still.empty, Nat.zero_sub]
    simp only [exec, releaseInbound, still.held]
    exact ⟨calmed_of still rfl rfl rfl ⟨rfl, rfl⟩ id ⟨still.held.symm, drained⟩ fun _ => rfl, rfl,
      Nat.zero_lt_one⟩
  case deliverClose r cause =>
    simp only [exec, deliverClose]
    split
    · exact ⟨same, rfl, Nat.zero_lt_one⟩
    · exact ⟨calmed_of still rfl rfl rfl ⟨rfl, rfl⟩ id ⟨rfl, still.empty⟩
        (UmuxFlags.update_view Life.peerFIN (by rfl)), rfl, Nat.zero_lt_one⟩
  case maybeFinishDrain =>
    simp only [exec, maybeFinishDrain, still.draining]
    exact ⟨same, rfl, Nat.zero_lt_one⟩
  case runWakes =>
    refine ⟨?_, rfl, Nat.zero_lt_one⟩
    simp only [exec, runWakes]
    rw [UmuxFootprint.foldl_clearWake]
    exact calmed_of still rfl rfl rfl ⟨rfl, rfl⟩ id ⟨rfl, still.empty⟩ fun r =>
      UmuxFlags.clearWakes_view Life.peerFIN (fun _ => rfl) s s.wakeQ r
  case drainCloses =>
    exact ⟨calmed_of still rfl rfl rfl ⟨rfl, rfl⟩ id ⟨rfl, still.empty⟩ fun _ => rfl, rfl,
      Nat.zero_lt_one⟩
  case turnEnd =>
    exact ⟨calmed_of still rfl rfl rfl ⟨rfl, rfl⟩ (fun _ => rfl) ⟨rfl, still.empty⟩ fun _ => rfl, rfl,
      Nat.zero_lt_one⟩
  case tryFinish r =>
    rw [exec, tryFinish_still client still (by simpa [calm] using calmed)]
    exact ⟨same, rfl, Nat.zero_lt_one⟩
  case requestFlush =>
    simp only [calm] at calmed
    simp only [exec, requestFlush, calmed, if_true]
    exact ⟨same, rfl, Nat.zero_lt_one⟩
  case closeWriteDone r =>
    simp only [calm, Bool.and_eq_true, decide_eq_true_eq] at calmed
    refine ⟨calmed_of still rfl rfl rfl ⟨rfl, rfl⟩ id ⟨rfl, still.empty⟩ fun _ => rfl, ?_,
      by simp [exec, closeWriteDone, cost]⟩
    simp [exec, closeWriteDone, calm, calmed]
  all_goals cases calmed

def locked : Section → Bool
  | .rearmScan _ | .rearmSubmit _ => true
  | _ => false

def Unlocked (s : Session) (stack : List Section) : Prop :=
  s.time.timerMu = false ∨ stack.head?.any locked = true

theorem unlocked_exec (still : Still s) (c : Oracle) {a : Section}
    {rest : List Section} (calmed : calm s a = true) (free : Unlocked s (a :: rest)) :
    Unlocked (exec client c a s).1 ((exec client c a s).2 ++ rest) := by
  by_cases holder : locked a = true
  · cases a
    case rearmScan now => exact .inr rfl
    case rearmSubmit next => exact .inl rfl
    all_goals cases holder
  · have mu : s.time.timerMu = false := free.resolve_right holder
    by_cases untouched : UmuxFootprint.touches a .time = false
    · refine .inl ?_
      rw [UmuxFootprint.exec_time client c s untouched]
      exact mu
    · cases a
      case rearmTimer => exact .inr rfl
      case armNotLaterThan moment =>
        refine .inl ?_
        simp only [exec, armNotLaterThan]
        (repeat' split) <;> exact mu
      case tryFinish r =>
        rw [exec, tryFinish_still client still (by simpa [calm] using calmed)]
        exact .inl mu
      all_goals first | exact absurd rfl untouched | exact absurd rfl holder | cases calmed

theorem calm_ready {a : Section} {rest : List Section} (calmed : calm s a = true)
    (free : Unlocked s (a :: rest)) : ready a s = true := by
  cases a
  case rearmTimer | armNotLaterThan moment => simp [ready, subject, free.resolve_right nofun]
  all_goals first | rfl | cases calmed

theorem cost_pos (a : Section) : 0 < cost a := by
  cases a <;> simp [cost]

theorem settle_thread (before after : List (List Section)) (rest : List Section) (n : Nat)
    (stack : List Section) (bound : (stack.map cost).sum ≤ n) (still : Still s)
    (calmed : stack.all (calm s) = true) (free : Unlocked s stack) :
    ∃ s', Reachable (program client) ⟨s, before ++ (stack ++ rest) :: after⟩
        ⟨s', before ++ rest :: after⟩ ∧ Calmed s s' ∧ s'.time.timerMu = false := by
  induction n generalizing stack s with
  | zero =>
    cases stack with
    | nil =>
      exact ⟨s, Run.here, calmed_of still rfl rfl rfl ⟨rfl, rfl⟩ id ⟨rfl, still.empty⟩ fun _ => rfl,
        free.resolve_right nofun⟩
    | cons a stack =>
      have positive := cost_pos a
      simp only [List.map_cons, List.sum_cons] at bound
      omega
  | succ n ih =>
    cases stack with
    | nil =>
      exact ⟨s, Run.here, calmed_of still rfl rfl rfl ⟨rfl, rfl⟩ id ⟨rfl, still.empty⟩ fun _ => rfl,
        free.resolve_right nofun⟩
    | cons a stack =>
      rw [List.all_cons, Bool.and_eq_true] at calmed
      obtain ⟨alike, pushed, cheaper⟩ := calm_exec still {} calmed.1
      have moved := reachable_section (P := program client) (stack ++ rest) before after
        {} (calm_ready calmed.1 free)
      rw [← List.append_assoc] at moved
      obtain ⟨s', run, after', mu⟩ := ih ((exec client {} a s).2 ++ stack) (by
          simp only [List.map_append, List.sum_append, List.map_cons, List.sum_cons] at bound ⊢
          omega)
        alike.still (by
          rw [calm_alike alike, List.all_append, pushed, calmed.2]
          rfl)
        (unlocked_exec still {} calmed.1 free)
      exact ⟨s', run_trans moved run, alike.trans after', mu⟩

def Resting (s : Session) (thread : List Section) : Prop :=
  ∃ stack rest, thread = stack ++ rest ∧ stack.all (calm s) = true ∧ rest.all isParked = true

theorem resting_parked (s : Session) {thread : List Section} (parked : thread.all isParked = true) :
    Resting s thread := ⟨[], thread, rfl, rfl, parked⟩

theorem settle (still : Still s) (mu : s.time.timerMu = false)
    (threads : List (List Section)) (resting : ∀ t ∈ threads, Resting s t) :
    ∃ s' threads', Reachable (program client) ⟨s, threads⟩ ⟨s', threads'⟩ ∧ Calmed s s' ∧
      s'.time.timerMu = false ∧ ∀ t ∈ threads', t.all isParked = true := by
  suffices from_ : ∀ (before : List (List Section)), ∃ s' threads',
      Reachable (program client) ⟨s, before ++ threads⟩ ⟨s', before ++ threads'⟩ ∧ Calmed s s' ∧
        s'.time.timerMu = false ∧ ∀ t ∈ threads', t.all isParked = true from from_ []
  induction threads generalizing s with
  | nil =>
    exact fun before => ⟨s, [], Run.here,
      calmed_of still rfl rfl rfl ⟨rfl, rfl⟩ id ⟨rfl, still.empty⟩ fun _ => rfl, mu, nofun⟩
  | cons t ts ih =>
    intro before
    obtain ⟨stack, rest, rfl, calmed, parked⟩ := resting _ List.mem_cons_self
    obtain ⟨s₁, first, alike, mu₁⟩ :=
      settle_thread before ts rest _ stack le_rfl still calmed (.inl mu)
    have others : ∀ t ∈ ts, Resting s₁ t := by
      intro t member
      obtain ⟨stack, rest, split, calmed, parked⟩ := resting t (List.mem_cons_of_mem _ member)
      exact ⟨stack, rest, split, by rwa [calm_alike alike], parked⟩
    obtain ⟨s', ts', second, alike', mu', waiting⟩ := ih alike.still mu₁ others (before ++ [rest])
    rw [List.append_assoc, List.append_assoc] at second
    refine ⟨s', rest :: ts', run_trans first second, alike.trans alike', mu', ?_⟩
    intro t member
    rcases List.mem_cons.mp member with rfl | member
    · exact parked
    · exact waiting t member

theorem lookup_first {t : Table} (more : List (Sigma fun _ : Nat => Ref))
    (streams : t.entries = more ++ [⟨1, 0⟩]) : t.lookup 1 = some 0 := by
  refine AList.mem_lookup_iff.mpr ?_
  rw [streams]
  simp

theorem pass_blocked (f : Frame) (opened : s.status.closed = false)
    (here : s.reg.streams.lookup 1 = some 0) (silent : s.box.goAwaySent = false)
    (control : s.box.control = [f]) (pending : s.box.pending = 1 :: ids)
    (first : s.box.tx 0 = ⟨[], true, .queued⟩) (blocked : Blocked s.box.conn) :
    ∃ conn, Blocked conn ∧ s.pass client refuses =
      ({ s with box := ⟨{ s.box.toQueues with control := [] }, conn⟩ }, none) := by
  have size := size_pos f
  refine ⟨{ s.box.conn with wire := s.box.conn.wire ++ [f], unsent := s.box.conn.unsent + f.size },
    ⟨blocked.working, blocked.open_, Nat.add_pos_left blocked.unsent _, blocked.asked, blocked.honest⟩, ?_⟩
  have marked : ∀ q : Queues, q.goAwaySent = false → markGoAway q = q := by
    intro q quiet
    simp [markGoAway, quiet]
  have sends : headOf s.reg.streams s.box.toQueues = .control f := by simp only [headOf, control]
  have stops : headOf s.reg.streams s.box.toQueues.popControl = .fin 1 0 := by
    simp [headOf, Queues.popControl, control, pending, here, first]
  have taken : s.box.conn.write f (.accept 0) = ({ s.box.conn with
      wire := s.box.conn.wire ++ [f], unsent := s.box.conn.unsent + f.size }, .accepted) := by
    simp [Conn.write, blocked.working, blocked.open_]
  have busy : (s.box.conn.unsent + f.size == 0) = false := by
    rw [beq_eq_false_iff_ne]
    omega
  have refused : ∀ g, Conn.write { s.box.conn with
      wire := s.box.conn.wire ++ [f], unsent := s.box.conn.unsent + f.size } g .overflow =
      ({ s.box.conn with
        wire := s.box.conn.wire ++ [f], unsent := s.box.conn.unsent + f.size }, .overflow) := by
    intro g
    simp [Conn.write, blocked.working, blocked.open_, blocked.honest, busy]
  simp only [Session.pass, flushLocked, opened, Bool.false_eq_true, if_false, maxFlushFrames,
    refuses]
  rw [flushLoop]
  simp only [marked _ silent, sends, answerOf, taken, List.tail_cons]
  rw [flushLoop]
  simp only [marked s.box.toQueues.popControl silent, stops, answerOf, refused]
  simp [Queues.popControl, control]

def afterOpen (s : Session) (id : Nat) (conn : Conn) : Session :=
  { register id s.reg.fresh (newStream client s id true) with
    box := ⟨{ (newStream client s id true).box.toQueues with control := [] }, conn⟩ }

theorem jam_openStream (jam : Jam ids [] s) (busy : Blocked s.box.conn) :
    ∃ conn, Blocked conn ∧ exec client refuses (.openStream []) s =
      (afterOpen s (2 * ids.length + 3) conn,
        [.armNotLaterThan (s.time.clock + client.streamOpenTimeout), .emitDrained,
          .waitOpen s.reg.fresh]) := by
  have other : (0 : Ref) ≠ s.reg.fresh := Nat.ne_of_lt jam.fresh
  have apart : (1 : Nat) ≠ 2 * ids.length + 3 := by omega
  have here : (s.reg.streams.insert (2 * ids.length + 3) s.reg.fresh).lookup 1 = some 0 := by
    rw [AList.lookup_insert_ne apart]
    exact lookup_first _ jam.streams
  obtain ⟨conn, blocked, passed⟩ := pass_blocked
    (s := (register (2 * ids.length + 3) s.reg.fresh
      (newStream client s (2 * ids.length + 3) true)).queueControl
        (synFrame client (2 * ids.length + 3) []))
    (synFrame client (2 * ids.length + 3) []) jam.opened.1 here jam.silent.1
    (congrArg (· ++ [synFrame client (2 * ids.length + 3) []]) jam.silent.2) jam.pending
    ((update_of_ne other _ _).trans jam.first) busy
  refine ⟨conn, blocked, ?_⟩
  have room : ¬(client.maxMetadata < ([] : List UInt8).length ∨ s.status.closed = true ∨
      s.status.goAway = true ∨ client.maxStreams ≤ s.reg.streams.entries.length) := by
    rw [jam.opened.1, jam.opened.2, jam.streams]
    simp
    decide
  simp only [exec, openStream]
  rw [if_neg room, jam.nextID, passed]
  rfl

/-- The session after CloseWrite on stream `r`, before and after the FIN is queued. -/
def ending (s : Session) (r : Ref) : Session :=
  ((s.setLife r { s.life r with localFIN := true }).setWatch r
    { s.time.watch r with halfSince := some s.time.clock }).setWmu r true

def afterClose (s : Session) (id : Nat) (r : Ref) : Session :=
  (ending s r).setQueues (queueFin id r s.box.toQueues)

theorem reach_afterClose (id : Nat) (r : Ref) (threads : List (List Section))
    (old : r < s.reg.fresh) (wmu : s.wmu r = false) (life : s.life r = { opening := true })
    (tx : s.box.tx r = {}) (idOf : s.reg.idOf r = id) (live : s.reg.streams.lookup id = some r) :
    Reachable (program client) ⟨s, threads⟩ ⟨afterClose s id r, threads ++ [[Section.closeWriteDone r]]⟩ := by
  have closes : exec client {} (.closeWrite r) s = (ending s r, [.enqueueFin r]) := by
    simp only [exec, closeWrite, life, Bool.or_self, Bool.false_eq_true, if_false]
    rw [ending, life]
  have queued : exec client {} (.enqueueFin r) (ending s r) =
      (afterClose s id r, [.closeWriteDone r]) := by
    have listed : s.live r = true := live_iff.mpr (by rw [idOf]; exact live)
    simp only [exec, enqueueFin]
    rw [if_pos ⟨congrArg Tx.finState tx, listed⟩, afterClose, ← idOf]
    rfl
  have called := reachable_call (P := program client) threads {} (a := .closeWrite r) (s := s) rfl
    (by simp [program, ready, subject, old, wmu])
  have moved := reachable_section (P := program client) (a := .enqueueFin r) []
    threads [] {} (s := ending s r) rfl
  simp only [program, closes] at called
  simp only [program, queued, List.append_nil] at moved
  exact run_trans called moved

theorem queueFin_blank {q : Queues} (id : Nat) (blank : q.tx r = {}) : queueFin id r q =
      { q.setTx r ⟨[], true, .queued⟩ with pending := q.pending ++ [id] } := by
  simp [queueFin, queueStream, Queues.setTx, blank]

theorem jam_open (jam : Jam ids [] s) (busy : Blocked s.box.conn)
    (few : ids.length < 1000) {threads : List (List Section)}
    (parked : ∀ t ∈ threads, t.all isParked = true) :
    ∃ s' threads' r, Reachable (program client) ⟨s, threads⟩ ⟨s', threads'⟩ ∧
      Jam (ids ++ [2 * ids.length + 3]) [⟨2 * ids.length + 3, r⟩] s' ∧ Blocked s'.box.conn ∧
      s'.reg.idOf r = 2 * ids.length + 3 ∧ r < s'.reg.fresh ∧ Waits (s'.box.tx r) ∧ r ≠ 0 ∧
      ∀ t ∈ threads', Resting s' t := by
  obtain ⟨conn, blocked, opened⟩ := jam_openStream jam busy
  have first := reachable_call (P := program client) threads refuses rfl
    (a := .openStream []) (s := s) rfl
  simp only [program, opened] at first
  have absent : (2 * ids.length + 3) ∉ s.reg.streams := by
    rw [AList.mem_keys, AList.keys, jam.streams]
    simp [List.keys]
  have other : (0 : Ref) ≠ s.reg.fresh := Nat.ne_of_lt jam.fresh
  have blank : (afterOpen s (2 * ids.length + 3) conn).box.tx s.reg.fresh = {} := setTx_same _ _ _
  have second := reach_afterClose (s := afterOpen s (2 * ids.length + 3) conn)
    (2 * ids.length + 3) s.reg.fresh
    (threads ++ [[Section.armNotLaterThan (s.time.clock + client.streamOpenTimeout), .emitDrained,
      .waitOpen s.reg.fresh]]) (Nat.lt_succ_self _) (update_self _ _ _)
    (update_self _ _ _) blank (update_self _ _ _) (AList.lookup_insert _)
  have listed := queueFin_blank (2 * ids.length + 3) blank
  refine ⟨_, _, s.reg.fresh, run_trans first second, ?_, blocked, update_self _ _ _,
    Nat.lt_succ_self _, ?_, other.symm, ?_⟩
  · have box : (afterClose (afterOpen s (2 * ids.length + 3) conn) (2 * ids.length + 3)
        s.reg.fresh).box.toQueues = _ := listed
    constructor
    case still =>
      refine ⟨jam.still.draining, jam.still.held, jam.still.empty, ?_⟩
      intro q old
      by_cases own : q = s.reg.fresh
      · subst q
        simp [afterClose, ending, afterOpen, register, newStream, Session.setWmu, Session.setWatch,
          Session.setLife, Session.setQueues]
      · have before : q < s.reg.fresh := Nat.lt_of_le_of_ne (Nat.lt_succ_iff.mp old) own
        have life : (afterClose (afterOpen s (2 * ids.length + 3) conn) (2 * ids.length + 3)
            s.reg.fresh).life q = s.life q :=
          (update_of_ne own _ _).trans (update_of_ne own _ _)
        rw [life]
        exact jam.still.peers q before
    case mu => exact jam.mu
    case turn => exact jam.turn
    case opened => exact jam.opened
    case streams => exact (AList.entries_insert_of_notMem absent).trans (by rw [jam.streams]; rfl)
    case fresh => exact Nat.succ_pos _
    case nextID =>
      have wraps : UmuxFrame.wrap32 (2 * ids.length + 3 + 2) = 2 * ids.length + 5 := by
        simp only [UmuxFrame.wrap32]
        omega
      refine wraps.trans ?_
      simp only [List.length_append, List.length_singleton]
      omega
    case silent =>
      rw [box]
      exact ⟨jam.silent.1, rfl⟩
    case finished =>
      rw [box]
      exact jam.finished
    case pending =>
      rw [box]
      exact congrArg (· ++ [2 * ids.length + 3]) jam.pending
    case first =>
      rw [box]
      refine (setTx_other _ _ other).trans ?_
      exact (update_of_ne other _ _).trans jam.first
    case older =>
      intro id member
      simp only [List.length_append, List.length_singleton]
      rcases List.mem_append.mp member with before | last
      · have bounds := jam.older id before
        omega
      · rw [List.mem_singleton.mp last]
        omega
  · refine .inr ?_
    have queued : (afterClose (afterOpen s (2 * ids.length + 3) conn) (2 * ids.length + 3)
        s.reg.fresh).box.toQueues = _ := listed
    rw [queued]
    exact congrArg Tx.finState (setTx_same _ _ _)
  · intro t member
    simp only [List.append_assoc, List.mem_append, List.mem_cons, List.not_mem_nil, or_false] at member
    rcases member with before | rfl | rfl
    · exact resting_parked _ (parked t before)
    · exact ⟨[_, _], [.waitOpen s.reg.fresh], rfl, rfl, rfl⟩
    · refine ⟨[.closeWriteDone s.reg.fresh], [], rfl, ?_, rfl⟩
      simp [calm, afterClose, afterOpen, ending, register, newStream, Session.setWmu,
        Session.setWatch, Session.setLife, Session.setQueues, blocked.asked]

theorem jam_calmed {more : List (Sigma fun _ : Nat => Ref)} {s s' : Session}
    (jam : Jam ids more s) (calmed : Calmed s s') (mu : s'.time.timerMu = false) :
    Jam ids more s' := by
  obtain ⟨reg, box, status, ended, -, busy, still⟩ := calmed
  refine ⟨still, mu, ⟨busy jam.turn.1, ended.trans jam.turn.2⟩, ?_, ?_, ?_, ?_, ?_, ?_, ?_, ?_,
    jam.older⟩
  · rw [status]
    exact jam.opened
  · rw [reg]
    exact jam.streams
  · rw [reg]
    exact jam.fresh
  · rw [reg]
    exact jam.nextID
  · rw [box]
    exact jam.silent
  · rw [box]
    exact jam.finished
  · rw [box]
    exact jam.pending
  · rw [box]
    exact jam.first

theorem erase_entries {t : Table} {id : Nat} (streams : t.entries = [⟨id, r⟩, ⟨1, 0⟩]) :
    (t.erase id).entries = [⟨1, 0⟩] := by
  refine (congrArg (List.kerase id) streams).trans ?_
  simp [List.kerase]

theorem jam_abort {id : Nat} (jam : Jam ids [⟨id, r⟩] s)
    (busy : Blocked s.box.conn) (idOf : s.reg.idOf r = id) (other : r ≠ 0) (old : r < s.reg.fresh)
    {threads : List (List Section)} (parked : ∀ t ∈ threads, t.all isParked = true) :
    ∃ s' threads', Reachable (program client) ⟨s, threads⟩ ⟨s', threads'⟩ ∧ Jam ids [] s' ∧
      Blocked s'.box.conn ∧ ∀ t ∈ threads', Resting s' t := by
  have here : s.reg.streams.lookup id = some r := by
    refine AList.mem_lookup_iff.mpr ?_
    rw [jam.streams]
    simp
  have live : s.live r = true := live_iff.mpr (by rw [idOf]; exact here)
  have streams : ((s.unlist r).dropOut r).reg.streams.entries = [⟨1, 0⟩] := by
    have erased : ((s.unlist r).dropOut r).reg.streams = s.reg.streams.erase id := by
      simp only [Session.dropOut, Session.setQueues, Session.unlist, live, if_true, idOf]
    rw [erased]
    exact erase_entries jam.streams
  have rst : ((s.unlist r).dropOut r).sendControl (rstFrame (s.reg.idOf r)) =
      ((s.unlist r).dropOut r).queueControl (rstFrame (s.reg.idOf r)) := by
    simp [Session.sendControl, sendControlLocked, Session.queueControl, Session.dropOut,
      Session.unlist, Session.setQueues, jam.opened.1]
  obtain ⟨conn, blocked, passed⟩ := pass_blocked
    (s := ((s.unlist r).dropOut r).queueControl (rstFrame (s.reg.idOf r)))
    (rstFrame (s.reg.idOf r)) jam.opened.1 (lookup_first [] streams) jam.silent.1
    (congrArg (· ++ [rstFrame (s.reg.idOf r)]) jam.silent.2) jam.pending
    ((update_of_ne other.symm _ _).trans jam.first) busy
  have called := reachable_call (P := program client) threads refuses rfl
    (a := .abortStream r .closed) (s := s) (by simp [program, ready, subject, old])
  have aborted : exec client refuses (.abortStream r .closed) s =
      ({ (s.unlist r).dropOut r with
          box := ⟨{ ((s.unlist r).dropOut r).box.toQueues with control := [] }, conn⟩ },
        Section.emitDrained :: (answerAll (s.waiter r) (some .closed) ++
          [Section.resetStream r .closed]) ++ [Section.maybeFinishDrain]) := by
    simp only [exec, abortStream, live, if_true]
    rw [rst, passed]
    simp [closeOn, Session.queueControl, Session.setQueues]
  simp only [program, aborted] at called
  refine ⟨_, _, called, ?_, blocked, ?_⟩
  · refine ⟨⟨jam.still.draining, jam.still.held, jam.still.empty, jam.still.peers⟩, jam.mu, jam.turn,
      jam.opened, streams, jam.fresh, jam.nextID, ⟨jam.silent.1, rfl⟩, jam.finished, jam.pending, ?_,
      jam.older⟩
    exact (update_of_ne other.symm _ _).trans jam.first
  · intro t member
    rcases List.mem_append.mp member with before | last
    · exact resting_parked _ (parked t before)
    · rw [List.mem_singleton.mp last]
      refine ⟨_, [], (List.append_nil _).symm, ?_, rfl⟩
      cases s.waiter r <;> rfl

def jamStart : List (Move Section Oracle) :=
  [.run 0 {}, .run 0 {}, .run 0 {}, .run 0 {}, .start (.openStream []), .run 1 {}, .run 1 {},
    .run 1 {}, .start (.closeWrite 0), .run 2 {}, .run 2 {}, .run 2 {}, .run 2 {}, .run 2 {},
    .run 2 {}, .run 2 {}, .run 2 {}, .run 2 {}]

theorem jam_start : ∃ s threads,
    Reachable (program client) (newSession client 0) ⟨s, threads⟩ ∧ Jam [] [] s ∧
      Blocked s.box.conn ∧ ∀ t ∈ threads, t.all isParked = true := by
  obtain ⟨⟨s, threads⟩, run, checked⟩ := replay_reaches (P := program client)
    (p := newSession client 0) jamStart
    (fun p => decide ((p.state.status.draining = false ∧ p.state.inbox.readHeld = false ∧
        p.state.inbox.pendingBytes = 0 ∧ (p.state.life 0).peerFIN = false) ∧
      (p.state.time.timerMu = false ∧ p.state.busy = false ∧ p.state.ended = false) ∧
      (p.state.status.closed = false ∧ p.state.status.goAway = false) ∧
      (p.state.reg.streams.entries = [⟨1, 0⟩] ∧ p.state.reg.fresh = 1 ∧ p.state.reg.nextID = 3) ∧
      (p.state.box.goAwaySent = false ∧ p.state.box.control = [] ∧ p.state.box.finFlushed = [] ∧
        p.state.box.pending = [1] ∧ p.state.box.tx 0 = ⟨[], true, .queued⟩) ∧
      (p.state.box.conn.failed = false ∧ p.state.box.conn.closing = none ∧
        0 < p.state.box.conn.unsent ∧ p.state.box.conn.flushReq = true ∧
        p.state.box.conn.refusedIdle = false) ∧
      p.threads.all (fun t => t.all isParked) = true)) (by decide)
  obtain ⟨⟨draining, held, empty, peer⟩, ⟨mu, busy, ended⟩, opened, ⟨streams, fresh, nextID⟩,
    ⟨silent, control, finished, pending, first⟩, ⟨working, open_, unsent, asked, honest⟩, parked⟩ :=
    of_decide_eq_true checked
  refine ⟨s, threads, run, ?_, ⟨working, open_, unsent, asked, honest⟩, List.all_eq_true.mp parked⟩
  refine ⟨⟨draining, held, empty, ?_⟩, mu, ⟨busy, ended⟩, opened, streams, fresh ▸ Nat.one_pos, nextID,
    ⟨silent, control⟩, finished, pending, first, nofun⟩
  intro r old
  rw [fresh] at old
  rw [Nat.lt_one_iff.mp old]
  exact peer

theorem jam_grows (n : Nat) (few : n < 1000) : ∃ ids s threads, ids.length = n ∧
    Reachable (program client) (newSession client 0) ⟨s, threads⟩ ∧ Jam ids [] s ∧
      Blocked s.box.conn ∧ ∀ t ∈ threads, t.all isParked = true := by
  induction n with
  | zero =>
    obtain ⟨s, threads, run, jam, blocked, parked⟩ := jam_start
    exact ⟨[], s, threads, rfl, run, jam, blocked, parked⟩
  | succ n ih =>
    obtain ⟨ids, s, threads, length, run, jam, blocked, parked⟩ := ih (Nat.lt_of_succ_lt few)
    obtain ⟨s₁, threads₁, r, opened, jam₁, blocked₁, idOf, old, -, other, resting₁⟩ :=
      jam_open jam blocked (by omega) parked
    obtain ⟨s₂, threads₂, rested, calmed, mu, parked₂⟩ := settle jam₁.still jam₁.mu threads₁ resting₁
    rw [← calmed.reg] at idOf old
    rw [← calmed.box] at blocked₁
    obtain ⟨s₃, threads₃, aborted, jam₃, blocked₃, resting₃⟩ :=
      jam_abort (jam_calmed jam₁ calmed mu) blocked₁ idOf other old parked₂
    obtain ⟨s₄, threads₄, rested', calmed', mu', parked₄⟩ := settle jam₃.still jam₃.mu threads₃ resting₃
    rw [← calmed'.box] at blocked₃
    exact ⟨_, s₄, threads₄, by simp [length],
      run_trans run (run_trans opened (run_trans rested (run_trans aborted rested'))),
      jam_calmed jam₃ calmed' mu', blocked₃, parked₄⟩

theorem jam_sent {more : List (Sigma fun _ : Nat => Ref)}
    (jam : Jam ids more s) (blocked : Blocked s.box.conn) {threads : List (List Section)}
    (resting : ∀ t ∈ threads, Resting s t) :
    ∃ s' threads', Reachable (program client) ⟨s, threads⟩ ⟨s', threads'⟩ ∧ Jam ids more s' ∧
      s'.reg = s.reg ∧ s'.box.toQueues = s.box.toQueues ∧
      s'.box.conn = { s.box.conn with unsent := 0 } ∧ ∀ t ∈ threads', t.all isParked = true := by
  obtain ⟨s₁, threads₁, rested, calmed, mu, parked⟩ := settle jam.still jam.mu threads resting
  have jam₁ := jam_calmed jam calmed mu
  rw [← calmed.box] at blocked
  have sent := reachable_call (P := program client) threads₁ {}
    (a := .transportSent s₁.box.conn.unsent) (s := s₁) rfl rfl
  have drained : exec client {} (.transportSent s₁.box.conn.unsent) s₁ =
      (s₁.setConn { s₁.box.conn with unsent := 0 }, [.requestFlush]) := by
    have positive := blocked.unsent
    simp only [exec, transportSent, Nat.min_self, Nat.sub_self]
    rw [if_neg (by omega)]
  simp only [program, drained] at sent
  have jam₂ : Jam ids more (s₁.setConn { s₁.box.conn with unsent := 0 }) :=
    ⟨⟨jam₁.still.draining, jam₁.still.held, jam₁.still.empty, jam₁.still.peers⟩, mu, jam₁.turn,
      jam₁.opened, jam₁.streams, jam₁.fresh, jam₁.nextID, jam₁.silent, jam₁.finished, jam₁.pending,
      jam₁.first, jam₁.older⟩
  obtain ⟨s', threads', rested', calmed', mu', parked'⟩ := settle jam₂.still mu
    (threads₁ ++ [[Section.requestFlush]]) (by
      intro t member
      rcases List.mem_append.mp member with before | last
      · exact resting_parked _ (parked t before)
      · rw [List.mem_singleton.mp last]
        exact ⟨[.requestFlush], [], rfl, by simp [calm, Session.setConn, blocked.asked], rfl⟩)
  refine ⟨s', threads', run_trans rested (run_trans sent rested'), jam_calmed jam₂ calmed' mu',
    calmed'.reg.trans calmed.reg, ?_, ?_, parked'⟩
  · rw [calmed'.box, ← calmed.box]
    rfl
  · rw [calmed'.box, ← calmed.box]
    rfl

/-- The session once a read turn has begun: no wake is owed and no flush asked for. -/
def turning (s : Session) : Session :=
  beginTurn (s.setConn { s.box.conn with wakeOwed := false, flushReq := false })

def resets : Oracle := { incoming := .frame (rstFrame 1) }

theorem reach_reset (still : Still s)
    (turn : s.busy = false ∧ s.ended = false) (open_ : s.box.conn.closing = none)
    (here : s.reg.streams.lookup 1 = some 0) : ∃ more, Reachable (program client) ⟨s, threads⟩
      ⟨((receive (rstFrame 1) (turning s)).unlist 0).dropOut 0,
        threads ++ [more ++ [.afterFrame]]⟩ ∧
      more.all (calm (((receive (rstFrame 1) (turning s)).unlist 0).dropOut 0)) = true := by
  have began := reachable_call (P := program client) threads {} (a := .turnRead) (s := s) rfl
    (by simp [program, ready, subject, turn, open_])
  have cleared := reachable_section (P := program client) (a := .onRead) [] threads [] {}
    (s := beginTurn (s.setConn { s.box.conn with wakeOwed := false })) rfl
  have unheld : exec client {} .heldReads (turning s) = (turning s, [.readFrame]) := by
    have held : (turning s).inbox.readHeld = false := still.held
    simp [exec, heldReads, held]
  have looked := reachable_section (P := program client) (a := .heldReads) [] threads [] {}
    (s := turning s) rfl
  simp only [program, unheld] at looked
  have framed : exec client resets .readFrame (turning s) =
      (receive (rstFrame 1) (turning s), [.abortRemote 0 .streamReset, .afterFrame]) := by
    have accepted : wellFormed (rstFrame 1) = true ∧
        validateFrame (rstFrame 1).hdr (wrap32 client.windowSize) (wrap32 client.maxMetadata) = none := by
      decide
    have found : (receive (rstFrame 1) (turning s)).reg.streams.lookup 1 = some 0 := here
    simp only [exec, readFrame, resets, accepted.1, accepted.2]
    generalize receive (rstFrame 1) (turning s) = t at found
    simp [handleFrame, rstFrame, UmuxFrame.control, handleWindowUpdate, found]
  have parsed := reachable_section (P := program client) (a := .readFrame) [] threads []
    resets (s := turning s) rfl
  simp only [program, framed] at parsed
  have removed := reachable_section (P := program client) (a := .abortRemote 0 .streamReset)
    [.afterFrame] threads [] {} (s := receive (rstFrame 1) (turning s)) rfl
  refine ⟨_, run_trans began (run_trans cleared (run_trans looked (run_trans parsed removed))), ?_⟩
  simp only [program, exec, abortRemote]
  cases (receive (rstFrame 1) (turning s)).waiter 0 <;> rfl

theorem reach_spent (still : Still s)
    (mu : s.time.timerMu = false) (opened : s.status.closed = false) (quiet : s.turnErr = none)
    (control : s.box.control = []) (finished : s.box.finFlushed = [])
    (long : maxFlushFrames ≤ s.box.pending.length)
    (stale : ∀ id ∈ s.box.pending.take maxFlushFrames, ¬Works s.reg.streams s.box.tx id) :
    ∃ s', Reachable (program client) ⟨s, threads ++ [[Section.afterFrame]]⟩ ⟨s', threads ++ [[]]⟩ ∧
      s'.reg = s.reg ∧ s'.status = s.status ∧ s'.box.conn = s.box.conn ∧
      ∀ r, Waits (s'.box.tx r) ↔ Waits (s.box.tx r) := by
  have framed := reachable_section (P := program client) (a := .afterFrame) [] threads [] {}
    (s := s) rfl
  have within := reachable_section (P := program client) (a := .exhaustedBudget) [] threads
    [] {} (s := s) rfl
  have parsed := reachable_section (P := program client) (a := .readFrame) [] threads [] {}
    (s := s) rfl
  have flushed := reachable_section (P := program client) (a := .flush)
    [.runWakes, .drainCloses, .turnEnd] threads [] {} (s := s) rfl
  obtain ⟨q, done, control', fins, pending, same⟩ := flushLoop_spent client.drainObs s.reg.streams
    maxFlushFrames [] s.box.toQueues s.box.conn control long stale
  have passed : s.pass client {} = ({ s with box := ⟨q, s.box.conn⟩ }, none) := by
    simp only [Session.pass, flushLocked, opened, Bool.false_eq_true, if_false, done]
  have flush_ : exec client {} .flush s = ({ s with box := ⟨{ q with finFlushed := [] }, s.box.conn⟩ },
      [.emitDrained, .maybeFinishDrain]) := by
    simp only [exec, flush, passed, fins, finished]
    rfl
  have after_ : exec client {} .afterFrame s = (s, [.exhaustedBudget]) := by
    simp only [exec, afterFrame, quiet]
  have budget : exec client {} .exhaustedBudget s = (s, [.readFrame]) := by
    simp only [exec, exhaustedBudget, still.empty, Nat.zero_le, if_true]
  simp only [program, after_] at framed
  simp only [program, budget] at within
  simp only [program, flush_] at flushed
  obtain ⟨s', settled, calmed, -⟩ := settle_thread threads [] [] _
    [.emitDrained, .maybeFinishDrain, .runWakes, .drainCloses, .turnEnd]
    (s := { s with box := ⟨{ q with finFlushed := [] }, s.box.conn⟩ }) le_rfl
    ⟨still.draining, still.held, still.empty, still.peers⟩ rfl (.inl mu)
  refine ⟨s', run_trans framed (run_trans within (run_trans parsed (run_trans flushed settled))),
    calmed.reg, calmed.status, ?_, ?_⟩
  · rw [calmed.box]
  · intro r
    rw [calmed.box]
    exact same r

/-- An open session at rest whose transport holds nothing, refused nothing and owes no
    wake, while a FIN waits. -/
theorem flush_forgotten :
    ∃ p, Reachable (program client) (newSession client 0) p ∧ Quiet p ∧ Open p.state ∧
      p.state.box.conn.refusedIdle = false ∧ Work p.state.reg.streams p.state.box.toQueues ∧
      p.state.box.conn.wakeOwed = false ∧ p.state.box.conn.unsent = 0 := by
  obtain ⟨ids, s, threads, length, run, jam, blocked, parked⟩ := jam_grows 255 (by decide)
  obtain ⟨s₁, threads₁, r, opened, jam₁, blocked₁, -, -, waits, other, resting₁⟩ :=
    jam_open jam blocked (by omega) parked
  obtain ⟨s₂, threads₂, sent, jam₂, reg, queues, conn, parked₂⟩ := jam_sent jam₁ blocked₁ resting₁
  have here : s₂.reg.streams.lookup 1 = some 0 := lookup_first _ jam₂.streams
  have run₂ := run_trans run (run_trans opened sent)
  have named : s₂.reg.idOf 0 = 1 := ((onList_run run₂).listed.streams 1 0 here).2
  obtain ⟨more, reset, calm₃⟩ := reach_reset threads₂ jam₂.still jam₂.turn
    (by rw [conn]; exact blocked₁.open_) here
  have live : (receive (rstFrame 1) (turning s₂)).live 0 = true :=
    live_iff.mpr ((congrArg (s₂.reg.streams.lookup ·) named).trans here)
  have erased : (((receive (rstFrame 1) (turning s₂)).unlist 0).dropOut 0).reg.streams =
      s₂.reg.streams.erase 1 := by
    simp only [Session.dropOut, Session.setQueues, Session.unlist, live, if_true]
    exact congrArg (s₂.reg.streams.erase ·) named
  obtain ⟨s₃, settled, calmed, mu⟩ := settle_thread threads₂ [] [.afterFrame] _ more
    (Nat.le_refl _)
    (s := ((receive (rstFrame 1) (turning s₂)).unlist 0).dropOut 0)
    ⟨jam₂.still.draining, jam₂.still.held, jam₂.still.empty, jam₂.still.peers⟩ calm₃ (.inl jam₂.mu)
  have pending : s₃.box.pending = 1 :: (ids ++ [2 * ids.length + 3]) := by
    rw [calmed.box]
    exact jam₂.pending
  have gone : ∀ id ∈ 1 :: ids, s₃.reg.streams.lookup id = none := by
    intro id member
    rw [calmed.reg, erased]
    rcases List.mem_cons.mp member with rfl | member
    · rw [AList.lookup_erase]
    · have bounds := jam.older id member
      rw [AList.lookup_erase_ne (by omega), AList.lookup_eq_none, AList.mem_keys, AList.keys, jam₂.streams]
      simp [List.keys]
      omega
  obtain ⟨s₄, spent, reg₄, status₄, conn₄, same⟩ := reach_spent threads₂ calmed.still mu
    (by rw [calmed.status]; exact jam₂.opened.1) (by rw [calmed.turnErr]; rfl)
    (by rw [calmed.box]; exact jam₂.silent.2) (by rw [calmed.box]; exact jam₂.finished)
    (by rw [pending]; simp [length, maxFlushFrames]) (by
      have first : s₃.box.pending.take maxFlushFrames = 1 :: ids := by
        rw [pending, maxFlushFrames, List.take_succ_cons, List.take_left' length]
      rw [first]
      rintro id member ⟨q, found, -⟩
      rw [gone id member] at found
      cases found)
  have conn₃ : s₄.box.conn = { s₂.box.conn with wakeOwed := false, flushReq := false } := by
    rw [conn₄, calmed.box]
    rfl
  refine ⟨⟨s₄, threads₂ ++ [[]]⟩, run_trans run₂ (run_trans reset (run_trans settled spent)), ?_, ?_,
    ?_, ?_, ?_, ?_⟩
  · intro a member
    simp only [owed, List.flatten_append, List.flatten_singleton, List.append_nil,
      Multiset.mem_coe] at member
    obtain ⟨t, thread, member⟩ := List.mem_flatten.mp member
    exact List.all_eq_true.mp (parked₂ t thread) a member
  · refine ⟨?_, ?_⟩
    · rw [status₄, calmed.status]
      exact jam₂.opened.1
    · rw [conn₃, conn]
      exact blocked₁.open_
  · rw [conn₃, conn]
    exact blocked₁.honest
  · refine .inr ⟨2 * ids.length + 3, r, ?_, (same r).mpr ?_⟩
    · rw [reg₄, calmed.reg, erased, AList.lookup_erase_ne (by omega)]
      refine AList.mem_lookup_iff.mpr ?_
      rw [jam₂.streams]
      simp
    · have kept : s₃.box.tx r = s₂.box.tx r := by
        rw [calmed.box]
        exact setTx_other _ _ other
      rw [kept, queues]
      exact waits
  · rw [conn₃]
  · rw [conn₃, conn]

end UmuxJam
