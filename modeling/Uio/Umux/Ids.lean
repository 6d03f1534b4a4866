import Uio.Umux.Jam
import Uio.Umux.Table

/- The ids of the streams this side opens. The counter is 32 bits wide and Open does
   not look whether its next value is in use, so ids are unique for as long as the
   counter has not come round: for the first 2^31 - 1 streams. -/
namespace UmuxIds
open Interleaving UmuxFrame UmuxOutbox UmuxSession UmuxSettings UmuxMachine UmuxLifecycle UmuxTurn
open UmuxFootprint UmuxEdits UmuxBirth UmuxSpine UmuxSteps UmuxTable UmuxJam UmuxInbound
open Function (update update_of_ne update_self)
variable {cfg : Endpoint} {s : Session}

def own (cfg : Endpoint) (id : Nat) : Bool := id % 2 = if cfg.client then 1 else 0

def firstID (cfg : Endpoint) : Nat := if cfg.client then 1 else 2

def opened (cfg : Endpoint) (reg : Registry) : Nat :=
  (List.range reg.fresh).countP fun r => own cfg (reg.idOf r)

/-- The ids of one parity that are not 0 and that the counter passes before it comes round. -/
def idSpace : Nat := 2 ^ 31 - 1

theorem own_of_peer {id : Nat} (peer : checkPeerStreamID cfg id = true) : own cfg id = false := by
  unfold checkPeerStreamID at peer
  unfold own
  split at peer
  · rename_i client
    simp only [Bool.and_eq_true, decide_eq_true_eq] at peer
    simp [client, peer.1]
  · rename_i server
    simp only [decide_eq_true_eq] at peer
    simp [server, peer]

theorem own_next (cfg : Endpoint) (n : Nat) : own cfg (wrap32 (firstID cfg + 2 * n)) = true := by
  unfold own firstID wrap32
  cases cfg.client <;> simp

structure Numbered (cfg : Endpoint) (reg : Registry) : Prop where
  next : reg.nextID = wrap32 (firstID cfg + 2 * opened cfg reg)
  older : ∀ r < reg.fresh, own cfg (reg.idOf r) = true →
    0 < reg.idOf r ∧ reg.idOf r < firstID cfg + 2 * opened cfg reg

theorem opened_new (cfg : Endpoint) (reg : Registry) (id : Nat) (streams openWait : Table)
    (nextID : Nat) :
    opened cfg { reg with
      fresh := reg.fresh + 1
      idOf := update reg.idOf reg.fresh id
      streams := streams
      openWait := openWait
      nextID := nextID } = opened cfg reg + (own cfg id).toNat := by
  unfold opened
  simp only
  rw [List.range_succ, List.countP_append, List.countP_singleton, update_self]
  have same : (List.range reg.fresh).countP
      (fun r => own cfg (update reg.idOf reg.fresh id r)) =
      (List.range reg.fresh).countP fun r => own cfg (reg.idOf r) := by
    apply List.countP_congr
    intro r member
    rw [update_of_ne (Nat.ne_of_lt (List.mem_range.mp member))]
  rw [same]
  cases own cfg id <;> rfl

theorem next_exact (cfg : Endpoint) {n : Nat} (room : n < idSpace) :
    wrap32 (firstID cfg + 2 * n) = firstID cfg + 2 * n := by
  unfold wrap32 firstID
  unfold idSpace at room
  apply Nat.mod_eq_of_lt
  split <;> omega

theorem numbered_open {reg : Registry} (numbered : Numbered cfg reg)
    (room : opened cfg reg < idSpace) (streams openWait : Table) :
    Numbered cfg { reg with
      fresh := reg.fresh + 1
      idOf := update reg.idOf reg.fresh reg.nextID
      streams := streams
      openWait := openWait
      nextID := wrap32 (reg.nextID + 2) } := by
  have mine : own cfg reg.nextID = true := by
    rw [numbered.next]
    exact own_next cfg _
  have exact_ : reg.nextID = firstID cfg + 2 * opened cfg reg := by
    rw [numbered.next, next_exact cfg room]
  have count := opened_new cfg reg reg.nextID streams openWait (wrap32 (reg.nextID + 2))
  rw [mine, Bool.toNat_true] at count
  constructor
  · rw [count, exact_]
    congr 1
  · intro r old
    rw [count]
    by_cases new : r = reg.fresh
    · subst r
      simp only [update_self]
      intro _
      have positive : 0 < firstID cfg := by
        unfold firstID
        split <;> decide
      omega
    · simp only [update_of_ne new]
      intro same
      have before := numbered.older r (Nat.lt_of_le_of_ne (Nat.lt_succ_iff.mp old) new) same
      omega

theorem numbered_peer {reg : Registry} (numbered : Numbered cfg reg) {id : Nat}
    (peer : own cfg id = false) (streams : Table) :
    Numbered cfg { reg with
      fresh := reg.fresh + 1
      idOf := update reg.idOf reg.fresh id
      streams := streams } := by
  have count := opened_new cfg reg id streams reg.openWait reg.nextID
  rw [peer, Bool.toNat_false, Nat.add_zero] at count
  constructor
  · rw [count]
    exact numbered.next
  · intro r old
    rw [count]
    by_cases new : r = reg.fresh
    · subst r
      simp only [update_self]
      intro mine
      rw [peer] at mine
      cases mine
    · simp only [update_of_ne new]
      exact numbered.older r (Nat.lt_of_le_of_ne (Nat.lt_succ_iff.mp old) new)

/-- Open is called while this side has opened fewer streams than there are ids. -/
def Early (cfg : Endpoint) (_ : Oracle) (a : Section) (s : Session) : Prop :=
  ∀ metadata, a = .openStream metadata → opened cfg s.reg < idSpace

def Vetted (cfg : Endpoint) (a : Section) : Prop :=
  ∀ id delta metadata, a = .acceptVet id delta metadata → checkPeerStreamID cfg id = true

theorem vetted_pushed (cfg : Endpoint) (c : Oracle) {a : Section} {id delta : Nat}
    {metadata : List UInt8} (pushed : .acceptVet id delta metadata ∈ (exec cfg c a s).2) :
    checkPeerStreamID cfg id = true := by
  have next := next_of_placed cfg c pushed (by rfl)
  cases a <;> first | (cases next; done) | skip
  have taken := readFrame_taken cfg c s
  simp only [exec] at pushed
  generalize readFrame cfg c s = step at taken pushed
  cases taken with
  | ended | failed e => simp at pushed
  | frame f arrived formed valid handled =>
    cases handled with
    | vetted delta' metadata' peer free =>
      cases accepts : cfg.accept <;> simp [accepts] at pushed <;> exact pushed.1 ▸ peer
    | _ => simp at pushed

theorem numbered_exec {c : Oracle} {a : Section}
    (early : Early cfg c a s) (peer : Vetted cfg a) (numbered : Numbered cfg s.reg) :
    Numbered cfg (exec cfg c a s).1.reg := by
  cases made : creates a with
  | false =>
    obtain ⟨fresh, idOf, nextID⟩ := exec_names cfg c (s := s) made
    have count : opened cfg (exec cfg c a s).1.reg = opened cfg s.reg := by
      unfold opened
      rw [fresh, idOf]
    constructor
    · rw [nextID, count]
      exact numbered.next
    · rw [fresh, idOf, count]
      exact numbered.older
  | true =>
    cases a
    case openStream metadata =>
      rcases openStream_made cfg c s metadata with same | ⟨reg, -⟩
      · simp only [exec, same]
        exact numbered
      · simp only [exec, reg]
        exact numbered_open numbered (early metadata rfl) _ _
    case acceptVet id delta metadata =>
      rcases acceptVet_made cfg c s id delta metadata with same | ⟨reg, -⟩
      · simp only [exec, same]
        exact numbered
      · simp only [exec, reg]
        exact numbered_peer numbered (own_of_peer (peer id delta metadata rfl)) _
    all_goals cases made

theorem numbered_run {now : Nat} {p : Pool Session Section}
    (run : Run (program cfg) (Early cfg) (newSession cfg now) p) : Numbered cfg p.state.reg := by
  refine (owed_carries (fun s : Session => Numbered cfg s.reg) (fun _ => Vetted cfg) ?_ ?_ ?_ ?_ run).1
  · refine ⟨?_, fun r old => absurd old (Nat.not_lt_zero r)⟩
    unfold newSession firstID wrap32
    cases cfg.client <;> rfl
  · simp [owed, newSession, Vetted]
  · rintro s a - entry id delta metadata rfl
    cases entry
  · intro s a c ready early numbered vetted
    refine ⟨numbered_exec early vetted numbered, fun b other => other, ?_⟩
    rintro b pushed id delta metadata rfl
    exact vetted_pushed cfg c pushed

theorem opened_id_unique (cfg : Endpoint) (now : Nat) (p : Pool Session Section)
    (run : Run (program cfg) (Early cfg) (newSession cfg now) p) (c : Oracle)
    (metadata : List UInt8) (early : Early cfg c (.openStream metadata) p.state)
    (made : (exec cfg c (.openStream metadata) p.state).1.reg.fresh = p.state.reg.fresh + 1)
    (id : Nat) (assigned :
      (exec cfg c (.openStream metadata) p.state).1.reg.idOf p.state.reg.fresh = id) :
    id ≠ 0 ∧ own cfg id = true ∧ p.state.reg.streams.lookup id = none := by
  have numbered := numbered_run run
  have room := early metadata rfl
  have next : id = firstID cfg + 2 * opened cfg p.state.reg := by
    rcases openStream_made cfg c p.state metadata with same | ⟨reg, -⟩
    · rw [exec, same] at made
      omega
    · rw [exec, reg] at assigned
      rw [← next_exact cfg room, ← numbered.next]
      exact assigned.symm.trans (Function.update_self _ _ _)
  have mine : own cfg id = true := by
    rw [next, ← next_exact cfg room]
    exact own_next cfg _
  refine ⟨?_, mine, ?_⟩
  · have positive : 0 < firstID cfg := by
      unfold firstID
      split <;> decide
    omega
  · cases found : p.state.reg.streams.lookup id with
    | none => rfl
    | some r =>
      obtain ⟨old, named⟩ := (listed_run run).streams id r found
      have before := (numbered.older r old (by rw [named]; exact mine)).2
      omega

def opensEarly (cfg : Endpoint) (_ : Oracle) (a : Section) (s : Session) : Bool :=
  match a with
  | .openStream _ => opened cfg s.reg < idSpace
  | _ => true

theorem opensEarly_sound (cfg : Endpoint) (c : Oracle) (a : Section) (s : Session)
    (early : opensEarly cfg c a s = true) : Early cfg c a s := by
  intro metadata opens
  subst a
  exact of_decide_eq_true early

/-- The second Open of a client beside a live stream of the peer's. -/
theorem opened_id_unique_second : ∃ p,
    (Run (program client) (Early client) (newSession client 0) p ∧
    p.state.reg.streams.lookup 1 = some 0 ∧ p.state.reg.streams.lookup 2 = some 1) ∧
    (3 ≠ 0 ∧ own client 3 = true ∧ p.state.reg.streams.lookup 3 = none) := by
  obtain ⟨p, run, checked⟩ := replay_meets (opensEarly_sound client)
    (fun p => decide (p.state.reg.streams.lookup 1 = some 0 ∧
      p.state.reg.streams.lookup 2 = some 1 ∧ opened client p.state.reg < idSpace ∧
      (exec client {} (.openStream []) p.state).1.reg.fresh = p.state.reg.fresh + 1 ∧
      (exec client {} (.openStream []) p.state).1.reg.idOf p.state.reg.fresh = 3))
    (List.flatten [runs 0 4 {}, [.start (.openStream [])], runs 1 1 {}, [.start .turnRead],
      runs 2 5 { incoming := .frame (control .windowUpdate { syn := true } 2 0) }])
    (P := program client) (p := newSession client 0) (by decide +kernel) (by decide +kernel)
  obtain ⟨mine, peers, early, made, assigned⟩ := of_decide_eq_true checked
  exact ⟨p, ⟨run, mine, peers⟩, opened_id_unique client 0 p run {} [] (fun _ _ => early) made 3
    assigned⟩

/-- A client at rest beside the live stream with id 1, about to give out `next`. -/
structure Beside (next : Nat) (s : Session) : Prop where
  still : Still s
  mu : s.time.timerMu = false
  opened : s.status.closed = false ∧ s.status.goAway = false
  streams : s.reg.streams.entries = [⟨1, 0⟩]
  nextID : s.reg.nextID = next
  silent : s.box.goAwaySent = false ∧ s.box.control = [] ∧ s.box.pending = []
  willing : s.box.conn.failed = false ∧ s.box.conn.closing = none

theorem pass_single (f : Frame) (opened : s.status.closed = false)
    (silent : s.box.goAwaySent = false) (queued : s.box.control = [f]) (quiet : s.box.pending = [])
    (willing : s.box.conn.failed = false ∧ s.box.conn.closing = none) :
    ∃ conn : Conn, (conn.failed = false ∧ conn.closing = none) ∧ s.pass client {} =
      ({ s with box := ⟨{ s.box.toQueues with control := [] }, conn⟩ }, none) := by
  refine ⟨{ s.box.conn with wire := s.box.conn.wire ++ [f], unsent := s.box.conn.unsent + f.size },
    willing, ?_⟩
  have unmarked : ∀ q : Queues, q.goAwaySent = false → markGoAway q = q := by
    intro q none
    simp [markGoAway, none]
  have sends : headOf s.reg.streams s.box.toQueues = .control f := by simp only [headOf, queued]
  have stops : headOf s.reg.streams s.box.toQueues.popControl = .empty := by
    simp [headOf, Queues.popControl, queued, quiet]
  have taken : s.box.conn.write f (.accept 0) = ({ s.box.conn with
      wire := s.box.conn.wire ++ [f], unsent := s.box.conn.unsent + f.size }, .accepted) := by
    simp [Conn.write, willing]
  simp only [Session.pass, flushLocked, opened, Bool.false_eq_true, if_false, maxFlushFrames]
  rw [flushLoop]
  simp only [unmarked _ silent, sends, answerOf, taken, List.tail_nil]
  rw [flushLoop]
  simp only [unmarked s.box.toQueues.popControl silent, stops]
  simp [Queues.popControl, queued]

def opening (s : Session) (next : Nat) (conn : Conn) : Session :=
  { register next s.reg.fresh (newStream client s next true) with
    box := ⟨{ (newStream client s next true).box.toQueues with control := [] }, conn⟩ }

theorem beside_open {next : Nat} (beside : Beside next s) :
    ∃ conn : Conn, (conn.failed = false ∧ conn.closing = none) ∧
      exec client {} (.openStream []) s = (opening s next conn,
        [.armNotLaterThan (s.time.clock + client.streamOpenTimeout), .emitDrained,
          .waitOpen s.reg.fresh]) := by
  obtain ⟨conn, willing, passed⟩ := pass_single
    (s := (register next s.reg.fresh (newStream client s next true)).queueControl
      (synFrame client next [])) (synFrame client next []) beside.opened.1 beside.silent.1
    (congrArg (· ++ [synFrame client next []]) beside.silent.2.1) beside.silent.2.2 beside.willing
  refine ⟨conn, willing, ?_⟩
  have room : ¬(client.maxMetadata < ([] : List UInt8).length ∨ s.status.closed = true ∨
      s.status.goAway = true ∨ client.maxStreams ≤ s.reg.streams.entries.length) := by
    rw [beside.opened.1, beside.opened.2, beside.streams]
    simp
    decide
  simp only [exec, openStream]
  rw [if_neg room, beside.nextID, passed]
  rfl

theorem opening_still (still : Still s) (next : Nat) (conn : Conn) :
    Still (opening s next conn) := by
  refine ⟨still.draining, still.held, still.empty, ?_⟩
  intro r old
  by_cases new : r = s.reg.fresh
  · subst r
    simp [opening, register, newStream]
  · have before : r < s.reg.fresh := Nat.lt_of_le_of_ne (Nat.lt_succ_iff.mp old) new
    have life : (opening s next conn).life r = s.life r := update_of_ne new _ _
    rw [life]
    exact still.peers r before

/-- The session after the Open's context ended and its stream was reset. -/
def cancelled (s : Session) (r : Ref) (conn : Conn) : Session :=
  { (s.unlist r).dropOut r with
    box := ⟨{ dropOutLocked r s.box.toQueues with control := [] }, conn⟩ }

theorem beside_abort {r : Ref} (opened : s.status.closed = false)
    (silent : s.box.goAwaySent = false ∧ s.box.control = [] ∧ s.box.pending = [])
    (willing : s.box.conn.failed = false ∧ s.box.conn.closing = none) (live : s.live r = true) :
    ∃ conn : Conn, (conn.failed = false ∧ conn.closing = none) ∧
      exec client {} (.abortStream r .context) s = (cancelled s r conn,
        Section.emitDrained :: (answerAll (s.waiter r) (some .context) ++
          [Section.resetStream r .context]) ++ [Section.maybeFinishDrain]) := by
  have queued : Session.sendControl ((s.unlist r).dropOut r) (rstFrame (s.reg.idOf r)) =
      Session.queueControl ((s.unlist r).dropOut r) (rstFrame (s.reg.idOf r)) := by
    have running : ((s.unlist r).dropOut r).status.closed = false := opened
    simp only [Session.sendControl, sendControlLocked, running, Bool.false_eq_true, if_false]
    rfl
  obtain ⟨conn, willing, passed⟩ := pass_single
    (s := Session.queueControl ((s.unlist r).dropOut r) (rstFrame (s.reg.idOf r)))
    (rstFrame (s.reg.idOf r)) opened silent.1
    (congrArg (· ++ [rstFrame (s.reg.idOf r)]) silent.2.1) silent.2.2 willing
  refine ⟨conn, willing, ?_⟩
  simp only [exec, abortStream]
  rw [if_pos live, queued, passed]
  simp only [closeOn, List.append_nil]
  rfl

theorem entries_cycle {t : Table} {k : Nat} (r : Ref) (absent : k ∉ t) :
    ((t.insert k r).erase k).entries = t.entries := by
  have inserted := AList.entries_insert_of_notMem (b := r) absent
  change List.kerase k (t.insert k r).entries = t.entries
  rw [inserted]
  exact List.kerase_cons_eq rfl

theorem reach_cancelled {r : Ref} {conn : Conn} (threads : List (List Section))
    (still : Still s) (mu : s.time.timerMu = false) (old : r < s.reg.fresh)
    (aborts : exec client {} (.abortStream r .context) (returnOpen r s) =
      (cancelled (returnOpen r s) r conn,
        Section.emitDrained :: (answerAll (s.waiter r) (some .context) ++
          [Section.resetStream r .context]) ++ [Section.maybeFinishDrain])) :
    ∃ s', Reachable (program client) ⟨s, threads ++ [[Section.waitOpen r]]⟩ ⟨s', threads ++ [[]]⟩ ∧
      Calmed (cancelled (returnOpen r s) r conn) s' ∧ s'.time.timerMu = false := by
  have given := reachable_section (P := program client) (a := .waitOpen r) [] threads []
    { ctxDone := true } (s := s) rfl
  have reset := reachable_section (P := program client) (a := .abortStream r .context) [] threads []
    {} (s := returnOpen r s) (by simp [program, ready, subject, returnOpen, old])
  simp only [program, aborts, List.append_nil] at reset
  have calms : (Section.emitDrained :: (answerAll (s.waiter r) (some .context) ++
      [Section.resetStream r .context]) ++ [Section.maybeFinishDrain]).all
        (calm (cancelled (returnOpen r s) r conn)) = true := by
    cases s.waiter r <;> rfl
  have resting : Still (cancelled (returnOpen r s) r conn) :=
    ⟨still.draining, still.held, still.empty, still.peers⟩
  obtain ⟨s', ends, alike, free⟩ := settle_thread threads [] [] _ _ le_rfl resting calms
    (.inl mu)
  rw [List.append_nil] at ends
  exact ⟨s', run_trans given (run_trans reset ends), alike, free⟩

theorem beside_cycle {next : Nat} (beside : Beside next s) (other : next ≠ 1)
    (threads : List (List Section)) :
    ∃ s' threads', Reachable (program client) ⟨s, threads⟩ ⟨s', threads'⟩ ∧
      Beside (wrap32 (next + 2)) s' := by
  obtain ⟨conn, willing, opens⟩ := beside_open beside
  have first := reachable_call (P := program client) threads {} (a := .openStream []) (s := s) rfl rfl
  simp only [program, opens] at first
  obtain ⟨s₁, second, alike, mu⟩ := settle_thread threads [] [.waitOpen s.reg.fresh] _
    [.armNotLaterThan (s.time.clock + client.streamOpenTimeout), .emitDrained] le_rfl
    (opening_still beside.still next conn) rfl (.inl beside.mu)
  have idOf : s₁.reg.idOf s.reg.fresh = next := by
    rw [alike.reg]
    exact update_self _ _ _
  have streams : s₁.reg.streams = s.reg.streams.insert next s.reg.fresh := by
    rw [alike.reg]
    rfl
  have live : s₁.live s.reg.fresh = true := by
    rw [live_iff, idOf, streams]
    exact AList.lookup_insert _
  have status : s₁.status = s.status := alike.status
  have box : s₁.box = (opening s next conn).box := alike.box
  obtain ⟨conn', willing', aborts⟩ := beside_abort (s := returnOpen s.reg.fresh s₁)
    (r := s.reg.fresh) (by rw [returnOpen, status]; exact beside.opened.1)
    (by simp only [returnOpen, box]; exact ⟨beside.silent.1, rfl, beside.silent.2.2⟩)
    (by simp only [returnOpen, box]; exact willing) live
  obtain ⟨s', third, after, free⟩ := reach_cancelled threads alike.still mu
    (by rw [alike.reg]; exact Nat.lt_succ_self _) aborts
  refine ⟨s', _, run_trans first (run_trans second third), ?_⟩
  have silent : s'.box.toQueues.goAwaySent = false ∧ s'.box.control = [] ∧ s'.box.pending = [] := by
    rw [after.box]
    simp only [cancelled, returnOpen, box]
    exact ⟨beside.silent.1, trivial, beside.silent.2.2⟩
  constructor
  case still => exact after.still
  case mu => exact free
  case opened =>
    rw [after.status]
    change s₁.status.closed = false ∧ s₁.status.goAway = false
    rw [status]
    exact beside.opened
  case streams =>
    have absent : next ∉ s.reg.streams := by
      rw [AList.mem_keys, AList.keys, beside.streams]
      simpa [List.keys] using other
    rw [after.reg]
    change (if s₁.live s.reg.fresh = true then s₁.reg.streams.erase (s₁.reg.idOf s.reg.fresh)
      else s₁.reg.streams).entries = _
    rw [if_pos live, idOf, streams, entries_cycle _ absent]
    exact beside.streams
  case nextID =>
    rw [after.reg]
    change s₁.reg.nextID = _
    rw [alike.reg]
    rfl
  case silent => exact silent
  case willing =>
    rw [after.box]
    exact willing'

theorem beside_cycles (beside : Beside 3 s) (threads : List (List Section)) (n : Nat)
    (few : n ≤ idSpace) : ∃ s' threads', Reachable (program client) ⟨s, threads⟩ ⟨s', threads'⟩ ∧
      Beside (wrap32 (3 + 2 * n)) s' := by
  induction n with
  | zero => exact ⟨s, threads, Run.here, beside⟩
  | succ n ih =>
    obtain ⟨s₁, threads₁, run, between⟩ := ih (Nat.le_of_succ_le few)
    have below : wrap32 (3 + 2 * n) = 3 + 2 * n := by
      unfold wrap32
      unfold idSpace at few
      omega
    rw [below] at between
    obtain ⟨s', threads', again, after⟩ := beside_cycle between (by omega) threads₁
    exact ⟨s', threads', run_trans run again, after⟩

/-- Stream 1 lives on while Open after Open is cancelled. When the counter has come
    round, Open gives its id out again and its table entry to the new stream. -/
theorem live_id_given_again : ∃ p, Reachable (program client) (newSession client 0) p ∧
    p.state.reg.streams.lookup 1 = some 0 ∧
    (exec client {} (.openStream []) p.state).1.reg.fresh = p.state.reg.fresh + 1 ∧
    (exec client {} (.openStream []) p.state).1.reg.idOf p.state.reg.fresh = 1 ∧
    (exec client {} (.openStream []) p.state).1.reg.streams.lookup 1 = some p.state.reg.fresh := by
  obtain ⟨p, reached, checked⟩ := replay_reaches
    (List.flatten [runs 0 4 {}, [.start (.openStream [])], runs 1 3 {}])
    (fun p => decide ((p.state.status.draining = false ∧ p.state.inbox.readHeld = false ∧
      p.state.inbox.pendingBytes = 0 ∧ ∀ r < p.state.reg.fresh, (p.state.life r).peerFIN = false) ∧
      p.state.time.timerMu = false ∧
      (p.state.status.closed = false ∧ p.state.status.goAway = false) ∧
      p.state.reg.streams.entries = [⟨1, 0⟩] ∧ p.state.reg.nextID = 3 ∧
      (p.state.box.goAwaySent = false ∧ p.state.box.control = [] ∧ p.state.box.pending = []) ∧
      (p.state.box.conn.failed = false ∧ p.state.box.conn.closing = none)))
    (P := program client) (p := newSession client 0) (by decide +kernel)
  obtain ⟨⟨draining, held, empty, peers⟩, mu, opened, streams, nextID, silent, willing⟩ :=
    of_decide_eq_true checked
  obtain ⟨s, threads, cycles, beside⟩ := beside_cycles
    ⟨⟨draining, held, empty, peers⟩, mu, opened, streams, nextID, silent, willing⟩ p.threads idSpace
    (Nat.le_refl _)
  have round : wrap32 (3 + 2 * idSpace) = 1 := by decide
  rw [round] at beside
  obtain ⟨conn, -, opens⟩ := beside_open beside
  refine ⟨⟨s, threads⟩, run_trans reached cycles, ?_, ?_, ?_, ?_⟩
  · refine AList.mem_lookup_iff.mpr ?_
    rw [beside.streams]
    exact List.mem_singleton.mpr rfl
  · simp only [opens]
    rfl
  · simp only [opens]
    exact Function.update_self _ _ _
  · simp only [opens]
    exact AList.lookup_insert _

end UmuxIds
