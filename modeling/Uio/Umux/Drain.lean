import Uio.Umux.Table

/- The end of a session in good order. Once it is going away its table only shrinks,
   and the drain that Shutdown waits for ends once: clean when the table is empty and
   the transport took the GoAway, and with a cause in every other way. -/
namespace UmuxDrain
open Interleaving UmuxFrame UmuxOutbox UmuxSession UmuxSettings UmuxMachine UmuxLifecycle UmuxTimers
open UmuxTurn UmuxOutbound UmuxFootprint UmuxEdits UmuxSteps UmuxBirth UmuxTable
variable (cfg : Endpoint) (c : Oracle) (a : Section) {s : Session} (id : Nat) {b : Queues}
  {conn : Conn}

inductive Moved (s : Session) : Status → Prop where
  | same : Moved s s.status
  | away : Moved s { s.status with goAway := true }
  | ended (cause : Cause) (running : s.status.closed = false) :
      Moved s { s.status with closed := true, closeErr := some cause }

/-- What a section does to the status: a drain is asked for once, and ends once. -/
inductive Outcome (s : Session) : Status → Prop where
  | moved {st : Status} (moved : Moved s st) : Outcome s st
  | asked (first : s.status.draining = false) (running : s.status.closed = false) :
      Outcome s { s.status with draining := true, goAway := true }
  | cut (cause : Cause) {st : Status} (moved : Moved s st) (draining : s.status.draining = true)
      (unraised : s.status.drainClosed = false) :
      Outcome s { st with drainClosed := true, drainErr := some cause }
  | clean (draining : s.status.draining = true) (unraised : s.status.drainClosed = false)
      (empty : s.reg.streams.entries = []) (flushed : s.box.goAwayFlushed = true) :
      Outcome s { s.status with drainClosed := true, drainErr := none }

theorem finishDrain_cases (err : Option Cause) (s : Session) :
    finishDrain err s = s ∨ s.status.draining = true ∧ s.status.drainClosed = false ∧
      (finishDrain err s).status = { s.status with drainClosed := true, drainErr := err } := by
  unfold finishDrain
  split
  · rename_i both
    simp only [Bool.and_eq_true, Bool.not_eq_true'] at both
    exact .inr ⟨both.1, both.2, rfl⟩
  · exact .inl rfl

theorem sayGoAway_status (s : Session) : (sayGoAway s).status = s.status := by
  rw [sayGoAway_queues]
  rfl

theorem exec_outcome (s : Session) : Outcome s (exec cfg c a s).1.status := by
  by_cases untouched : touches a .status = false
  · rw [exec_status cfg c s untouched]
    exact .moved .same
  · cases a
    case close cause =>
      simp only [exec, close]
      split
      · exact .moved .same
      · rcases finishDrain_cases (some cause)
          ((sayGoAway { s with status := { s.status with goAway := true } }).pass cfg c).1
          with same | ⟨draining, unraised, status⟩
        · rw [same]
          simp only [Session.pass, sayGoAway_status]
          exact .moved .away
        · simp only [Session.pass, sayGoAway_status] at draining unraised
          rw [status]
          simp only [Session.pass, sayGoAway_status]
          exact .cut cause .away draining unraised
    case shutdown =>
      simp only [exec, shutdown]
      split
      · exact .moved .same
      · rename_i first
        split
        · exact .moved .same
        · rename_i running
          simp only [Session.pass, sayGoAway_status]
          exact .asked (Bool.eq_false_iff.mpr first) (Bool.eq_false_iff.mpr running)
    case forceDrain cause =>
      simp only [exec, forceDrain]
      split
      · exact .moved .same
      · rcases finishDrain_cases (some .shutdownTimeout) s with same | ⟨draining, unraised, status⟩
        · rw [same]
          exact .moved .same
        · rw [status]
          exact .cut .shutdownTimeout .same draining unraised
    case maybeFinishDrain =>
      simp only [exec, maybeFinishDrain]
      split
      · rename_i ready
        obtain ⟨-, -, -, empty, flushed⟩ := ready
        rcases finishDrain_cases none s with same | ⟨draining, unraised, status⟩
        · rw [same]
          exact .moved .same
        · rw [status]
          exact .clean draining unraised empty flushed
      · exact .moved .same
    case onTransportClose cause =>
      simp only [exec, onTransportClose]
      split
      · exact .moved .same
      · rename_i running
        have running := Bool.eq_false_iff.mpr running
        rcases finishDrain_cases (some cause) s with same | ⟨draining, unraised, status⟩
        · rw [same]
          exact .moved (.ended cause running)
        · rw [status]
          exact .cut cause (.ended cause running) draining unraised
    case readFrame =>
      have taken := readFrame_taken cfg c s
      simp only [exec]
      generalize readFrame cfg c s = step at taken ⊢
      cases taken with
      | ended | failed e => exact .moved .same
      | frame f arrived formed valid handled =>
        cases handled with
        | goneAway => exact .moved .away
        | _ => exact .moved .same
    all_goals exact absurd rfl untouched

theorem goAway_exec (away : s.status.goAway = true) : (exec cfg c a s).1.status.goAway = true := by
  have outcome := exec_outcome cfg c a s
  generalize (exec cfg c a s).1.status = st at outcome ⊢
  cases outcome with
  | moved moved | cut cause moved draining unraised => cases moved <;> first | exact away | rfl
  | asked first running => rfl
  | clean draining unraised empty flushed => exact away

theorem raised_exec (raised : s.status.drainClosed = true) :
    (exec cfg c a s).1.status.drainClosed = true ∧
      (exec cfg c a s).1.status.drainErr = s.status.drainErr := by
  have outcome := exec_outcome cfg c a s
  generalize (exec cfg c a s).1.status = st at outcome ⊢
  cases outcome with
  | moved moved => cases moved <;> exact ⟨raised, rfl⟩
  | asked first running => exact ⟨raised, rfl⟩
  | cut cause moved draining unraised | clean draining unraised empty flushed =>
    rw [raised] at unraised
    cases unraised

theorem away_fewer (listed : Listed s.reg) (away : s.status.goAway = true) (id : Nat) (r : Ref)
    (found : (exec cfg c a s).1.reg.streams.lookup id = some r) :
    s.reg.streams.lookup id = some r := by
  cases made : creates a with
  | false => exact exec_fewer cfg c listed made id r found
  | true =>
    cases a
    case openStream metadata =>
      rw [exec, openStream, if_pos (.inr (.inr (.inl away)))] at found
      exact found
    case acceptVet k delta metadata =>
      simp only [exec, acceptVet] at found
      split at found
      · exact found
      · split at found
        · exact found
        · exact found
    all_goals cases made

theorem away_run {cfg : Endpoint} {p q : Pool Session Section} (listed : Listed p.state.reg)
    (away : p.state.status.goAway = true) (run : Reachable (program cfg) p q) :
    q.state.status.goAway = true ∧ ∀ id r, q.state.reg.streams.lookup id = some r →
      p.state.reg.streams.lookup id = some r := by
  have held := owed_invariant (fun (s : Session) _ => Listed s.reg ∧ s.status.goAway = true ∧ ∀ id r,
    s.reg.streams.lookup id = some r → p.state.reg.streams.lookup id = some r)
    ⟨listed, away, fun _ _ found => found⟩ (fun _ _ _ _ held => held) ?_ run
  · exact held.2
  · intro s others a c ready _ held
    refine ⟨listed_exec cfg c a held.1, goAway_exec cfg c a held.2.1, ?_⟩
    intro id r found
    exact held.2.2 id r (away_fewer cfg c a held.1 held.2.1 id r found)

theorem raised_run {cfg : Endpoint} {p q : Pool Session Section}
    (raised : p.state.status.drainClosed = true) (run : Reachable (program cfg) p q) :
    q.state.status.drainClosed = true ∧ q.state.status.drainErr = p.state.status.drainErr := by
  refine owed_invariant (fun (s : Session) _ => s.status.drainClosed = true ∧
    s.status.drainErr = p.state.status.drainErr) ⟨raised, rfl⟩ (fun _ _ _ _ held => held) ?_ run
  intro s others a c ready _ held
  obtain ⟨still, same⟩ := raised_exec cfg c a held.1
  exact ⟨still, same.trans held.2⟩

def goAwayFrame : Frame := control .goAway {} 0 goAwayNormal

/-- Where the GoAway is once a session counts it as sent, and as taken. -/
structure Said (closed : Bool) (b : Queues) (conn : Conn) : Prop where
  queued : closed = false → b.goAwaySent = true →
    goAwayFrame ∈ b.control ∨ goAwayFrame ∈ conn.wire
  flushed : b.goAwayFlushed = true → goAwayFrame ∈ conn.wire

theorem Said.carry {closed : Bool} {b b' : Queues} {conn conn' : Conn} (said : Said closed b conn)
    (sent : b'.goAwaySent = b.goAwaySent) (marked : b'.goAwayFlushed = b.goAwayFlushed)
    (control : ∀ f ∈ b.control, f ∈ b'.control) (wire : ∀ f ∈ conn.wire, f ∈ conn'.wire) :
    Said closed b' conn' := by
  constructor
  · intro running was
    rw [sent] at was
    exact (said.queued running was).imp (control _) (wire _)
  · intro was
    rw [marked] at was
    exact wire _ (said.flushed was)

theorem Said.mark (said : Said false b conn) : Said false (markGoAway b) conn := by
  unfold markGoAway
  split
  · rename_i both
    simp only [Bool.and_eq_true, List.isEmpty_iff] at both
    refine ⟨said.queued, fun _ => ?_⟩
    rcases said.queued rfl both.1 with waiting | out
    · rw [both.2] at waiting
      exact absurd waiting List.not_mem_nil
    · exact out
  · exact said

theorem afterData_said (drainObs : Bool) (id : Nat) (r : Ref)
    (said : Said false b conn) : Said false (afterData drainObs id r b) conn := by
  unfold afterData
  simp only
  split
  · split <;> exact said.carry rfl rfl (fun _ member => member) (fun _ member => member)
  · exact said.carry rfl rfl (fun _ member => member) (fun _ member => member)

theorem flushLoop_said (drainObs : Bool) (streams : Table) (budget : Nat) (answers : List Answer)
    (said : Said false b conn) :
    Said false (flushLoop drainObs streams budget answers b conn).1.toQueues
      (flushLoop drainObs streams budget answers b conn).1.conn := by
  have all : ∀ {l : List Frame}, ∀ f ∈ l, f ∈ l := fun _ member => member
  have refused : ∀ {b : Queues} {conn conn' : Conn} {f : Frame} {a : Answer},
      Said false b conn → conn.write f a = (conn', .overflow) → Said false b conn' := by
    intro b conn conn' f a said done
    rw [write_overflow done]
    exact said.carry rfl rfl all all
  have failed : ∀ {b : Queues} {conn conn' : Conn} {f : Frame} {a : Answer} {e : Cause},
      Said false b conn → conn.write f a = (conn', .failed e) → Said false b conn' := by
    intro b conn conn' f a e said done
    rw [write_failed done]
    exact said.carry rfl rfl all all
  have longer : ∀ {conn conn' : Conn} {f : Frame} {a : Answer},
      conn.write f a = (conn', .accepted) → ∀ g ∈ conn.wire, g ∈ conn'.wire := by
    intro conn conn' f a done g member
    rw [(write_accepted done).2.2]
    exact List.mem_append_left _ member
  induction budget generalizing answers b conn with
  | zero => exact said
  | succ budget ih =>
    have said := said.mark
    have found := headOf_found streams (markGoAway b)
    simp only [flushLoop]
    generalize markGoAway b = b at said found ⊢
    cases head : headOf streams b with
    | empty => exact said
    | gone | stale r => exact ih answers (said.carry rfl rfl all all)
    | control f =>
      rw [head] at found
      obtain ⟨rest, first⟩ := found
      rcases done : conn.write f (answerOf answers) with ⟨conn', verdict⟩
      simp only [done]
      cases verdict with
      | overflow => exact refused said done
      | failed e => exact failed said done
      | accepted =>
        refine ih answers.tail ⟨fun running sent => ?_, fun marked => ?_⟩
        · rcases said.queued running sent with waiting | out
          · rw [first] at waiting
            rcases List.mem_cons.mp waiting with rfl | later
            · right
              rw [(write_accepted done).2.2]
              exact List.mem_append_right _ List.mem_cons_self
            · left
              simp only [Queues.popControl, first, List.tail_cons]
              exact later
          · exact .inr (longer done _ out)
        · exact longer done _ (said.flushed marked)
    | fin id r =>
      rcases done : conn.write (finFrame id) (answerOf answers) with ⟨conn', verdict⟩
      simp only [done]
      cases verdict with
      | overflow => exact refused said done
      | failed e => exact failed said done
      | accepted => exact ih answers.tail (said.carry rfl rfl all (longer done))
    | data id r f =>
      rcases done : conn.write f (answerOf answers) with ⟨conn', verdict⟩
      simp only [done]
      cases verdict with
      | overflow => exact refused said done
      | failed e => exact (failed said done).carry rfl rfl all all
      | accepted =>
        exact ih answers.tail (afterData_said drainObs id r
          (said.carry rfl rfl all (longer done)))

def Told (s : Session) : Prop := Said s.status.closed s.box.toQueues s.box.conn

theorem pass_told (told : Told s) : Told (s.pass cfg c).1 := by
  unfold Told at told ⊢
  simp only [Session.pass, flushLocked]
  split
  · exact told
  · rename_i running
    rw [Bool.eq_false_iff.mpr running] at told ⊢
    exact flushLoop_said cfg.drainObs s.reg.streams maxFlushFrames c.answers told

theorem sendControl_told (f : Frame) (told : Told s) : Told (s.sendControl f) := by
  unfold Told at told ⊢
  simp only [Session.sendControl, Session.setQueues, sendControlLocked]
  split
  · exact told
  · exact told.carry rfl rfl (fun _ member => List.mem_append_left _ member) (fun _ member => member)

theorem reply_told (f : Frame) (told : Told s) : Told (reply cfg c f s) :=
  pass_told cfg c (sendControl_told f told)

theorem sayGoAway_told (running : s.status.closed = false) (told : Told s) :
    Told (sayGoAway s) := by
  unfold sayGoAway
  split
  · exact told
  · unfold Told
    simp only [Session.sendControl, Session.setQueues, sendControlLocked, running,
      Bool.false_eq_true, if_false]
    exact ⟨fun _ _ => .inl (List.mem_append_right _ List.mem_cons_self), told.flushed⟩

theorem visitId_told (now : Nat) (round : Round) (id : Nat)
    (told : Told round.state) : Told (Round.visitId cfg now round id).state := by
  unfold Round.visitId
  split
  · exact told
  · rename_i r here
    have visited := visitStream_visited cfg now round id r
    have off : ∀ {s : Session}, Told s → Told (delist id r s) := fun told =>
      Said.carry told rfl rfl (fun _ member => member) (fun _ member => member)
    have running : Told (fired now r round.state) := by
      rw [fired_time]
      exact told
    generalize Round.visitStream cfg now round id r = next at visited ⊢
    cases visited with
    | expired cause deadline => exact sendControl_told _ (off told)
    | unanswered due opening late => exact off running
    | halfClosed due half late => exact sendControl_told _ (off running)
    | stays due still => exact running

theorem visitIds_told (now : Nat) (ids : List Nat) (round : Round)
    (told : Told round.state) : Told (ids.foldl (Round.visitId cfg now) round).state := by
  induction ids generalizing round with
  | nil => exact told
  | cons id rest ih => exact ih _ (visitId_told cfg now round id told)

theorem timerRound_told (now : Nat) (told : Told s) : Told (timerRound cfg c s now).1 := by
  have visited := visitIds_told cfg now (visit c.order s.reg.streams) ⟨s, [], [], [], []⟩ told
  have pinged : ∀ {s : Session}, Told s → Told (keepAlive cfg now s).1 := by
    intro s told
    unfold keepAlive
    split
    · split
      · split
        · exact sendControl_told _ told
        · exact told
      · exact told
    · exact told
  have passed := pass_told cfg c (pinged visited)
  unfold timerRound
  simp only
  split <;> exact passed

theorem openStream_told (metadata : List UInt8)
    (told : Told s) : Told (openStream cfg c s metadata).1 := by
  unfold openStream
  split
  · exact told
  · have queued : Told (Session.queueControl
        (register s.reg.nextID s.reg.fresh (newStream cfg s s.reg.nextID true))
        (synFrame cfg s.reg.nextID metadata)) :=
      Said.carry told rfl rfl (fun _ member => List.mem_append_left _ member) (fun _ member => member)
    have passed := pass_told cfg c queued
    simp only
    split <;> exact passed

theorem acceptVet_told (id delta : Nat) (metadata : List UInt8) (told : Told s) : Told
    (acceptVet cfg c s id delta metadata).1 := by
  unfold acceptVet
  split
  · exact reply_told cfg c _ told
  · split
    · exact told
    · split
      · exact reply_told cfg c _ told
      · have made : Told
            (publish id s.reg.fresh (tuneWindows cfg s.reg.fresh delta (newStream cfg s id false))) :=
          Said.carry told rfl rfl (fun _ member => member) (fun _ member => member)
        have replied := reply_told cfg c (ackFrame cfg id) made
        simp only
        (repeat' split) <;> exact replied

theorem readFrame_told (told : Told s) : Told (readFrame cfg c s).1 := by
  have taken := readFrame_taken cfg c s
  generalize readFrame cfg c s = step at taken ⊢
  cases taken with
  | ended => exact told
  | failed e => exact told
  | frame f arrived formed valid handled =>
    cases handled with
    | replied g kind => exact reply_told cfg c g told
    | _ => exact told

theorem queueStream_told (r : Ref) {closed : Bool}
    (said : Said closed b conn) : Said closed (queueStream id r b) conn := by
  unfold queueStream
  split
  · exact said
  · exact said.carry rfl rfl (fun _ member => member) (fun _ member => member)

theorem told_exec (told : Told s) : Told (exec cfg c a s).1 := by
  have keep : ∀ {s' : Session}, s'.status.closed = s.status.closed →
      s'.box.goAwaySent = s.box.goAwaySent → s'.box.goAwayFlushed = s.box.goAwayFlushed →
      s'.box.control = s.box.control → s'.box.conn.wire = s.box.conn.wire → Told s' := by
    intro s' closed sent marked control wire
    unfold Told
    rw [closed]
    exact Said.carry told sent marked (fun f member => control ▸ member) (fun f member => wire ▸ member)
  by_cases last : ∃ cause, a = .onTransportClose cause
  · obtain ⟨cause, rfl⟩ := last
    simp only [exec, onTransportClose]
    split
    · exact told
    · rw [finishDrain_status]
      refine ⟨fun running => (by cases running), ?_⟩
      have marked : ∀ (refs : List Ref) (q : Queues),
          (refs.foldl (fun q r => dropOutLocked r q) q).goAwayFlushed = q.goAwayFlushed := by
        intro refs
        induction refs with
        | nil => exact fun _ => rfl
        | cons r rest ih => exact fun q => ih _
      intro flushed
      exact told.flushed ((marked _ _).symm.trans flushed)
  · have closed := exec_closed cfg c s (fun cause same => last ⟨cause, same⟩)
    by_cases untouched : touches a .queues = false ∧ touches a .conn = false
    · obtain ⟨queues, conn⟩ := untouched
      have q := exec_queues cfg c s queues
      have w := exec_conn cfg c s conn
      exact keep closed (congrArg Queues.goAwaySent q) (congrArg Queues.goAwayFlushed q)
        (congrArg Queues.control q) (congrArg Conn.wire w)
    · cases a
      case openStream metadata => exact openStream_told cfg c metadata told
      case timerRound now => exact timerRound_told cfg c now told
      case readFrame => exact readFrame_told cfg c told
      case acceptVet id delta metadata => exact acceptVet_told cfg c id delta metadata told
      case onTransportClose cause => exact absurd ⟨cause, rfl⟩ last
      case flush =>
        exact (pass_told cfg c told).carry rfl rfl (fun _ member => member) (fun _ member => member)
      case sendWindowUpdate id delta => exact pass_told cfg c (sendControl_told _ told)
      case abortStream r cause =>
        have gone : Told ((s.unlist r).dropOut r) := keep rfl rfl rfl rfl rfl
        simp only [exec, abortStream]
        split
        · exact pass_told cfg c (sendControl_told _ gone)
        · exact gone
      case tryFinish r =>
        simp only [exec, tryFinish]
        split
        · exact told
        · exact keep rfl rfl rfl rfl rfl
      case frameData r p =>
        simp only [exec, frameData]
        split
        · exact told
        · split
          · exact queueStream_told _ _
              (told.carry rfl rfl (fun _ member => member) (fun _ member => member))
          · exact told
      case enqueueFin r =>
        simp only [exec, enqueueFin]
        split
        · exact queueStream_told _ _
            (told.carry rfl rfl (fun _ member => member) (fun _ member => member))
        · exact told
      case emitDrained =>
        simp only [exec, emitDrained]
        split
        · exact keep rfl rfl rfl rfl rfl
        · exact told
      case requestFlush =>
        simp only [exec, requestFlush]
        split
        · exact told
        · exact keep rfl rfl rfl rfl rfl
      case transportSent n =>
        simp only [exec, transportSent]
        split
        · exact told
        · exact keep rfl rfl rfl rfl rfl
      case close cause =>
        simp only [exec, close]
        split
        · exact told
        · rename_i running
          rw [finishDrain_status]
          have passed := pass_told cfg c (sayGoAway_told (s := { s with
            status := { s.status with goAway := true } }) (Bool.eq_false_iff.mpr running) told)
          unfold Told at passed ⊢
          rwa [finishDrain_closed]
      case shutdown =>
        simp only [exec, shutdown]
        split
        · exact told
        · split
          · exact told
          · rename_i running
            exact pass_told cfg c (sayGoAway_told (s := { s with
              status := { s.status with draining := true, goAway := true } })
              (Bool.eq_false_iff.mpr running) told)
      all_goals first | exact absurd ⟨rfl, rfl⟩ untouched | exact keep rfl rfl rfl rfl rfl

theorem wire_exec (listed : Listed s.reg)
    {f : Frame} (out : f ∈ s.box.conn.wire) : f ∈ (exec cfg c a s).1.box.conn.wire := by
  by_cases edits : queues a = false
  · refine Edits.preserve (I := fun o => f ∈ o.conn.wire) ?_ (exec_edits cfg c listed edits) out
    intro o o' edit member
    cases edit with
    | spoke conn wire failed | dataLost id rest r g more conn first here out wire failed =>
      exact wire ▸ member
    | controlSent g rest conn first working wire => exact wire ▸ List.mem_append_left _ member
    | finSent id rest r conn first here empty fin working wire
    | dataSent drainObs id rest r g more conn first here out working wire =>
      exact wire ▸ List.mem_append_left _ member
    | _ => exact member
  · have untouched : touches a .conn = false := by
      cases a <;> first | rfl | exact absurd rfl edits
    rw [exec_conn cfg c s untouched]
    exact out

structure Drained (s : Session) : Prop where
  ended : s.status.closed = true → s.status.closeErr ≠ none
  asked : s.status.draining = true → s.status.goAway = true
  raised : s.status.drainClosed = true → s.status.draining = true
  clean : s.status.drainClosed = true → s.status.drainErr = none →
    s.reg.streams.entries = [] ∧ goAwayFrame ∈ s.box.conn.wire

theorem drained_exec (listed : Listed s.reg)
    (told : Told s) (held : Drained s) : Drained (exec cfg c a s).1 := by
  -- A table that is empty while the session goes away stays empty.
  have still : s.status.goAway = true → s.reg.streams.entries = [] →
      (exec cfg c a s).1.reg.streams.entries = [] := by
    intro away empty
    have fewer := entries_le (away_fewer cfg c a listed away)
    rw [empty, List.length_nil] at fewer
    exact List.length_eq_zero_iff.mp (Nat.le_zero.mp fewer)
  have beyond : s.status.drainClosed = true → s.status.drainErr = none →
      (exec cfg c a s).1.reg.streams.entries = [] ∧
        goAwayFrame ∈ (exec cfg c a s).1.box.conn.wire := by
    intro raised none
    obtain ⟨empty, out⟩ := held.clean raised none
    exact ⟨still (held.asked (held.raised raised)) empty, wire_exec cfg c a listed out⟩
  have outcome := exec_outcome cfg c a s
  suffices known : ∀ st, (exec cfg c a s).1.status = st → Outcome s st →
      (st.closed = true → st.closeErr ≠ none) ∧ (st.draining = true → st.goAway = true) ∧
      (st.drainClosed = true → st.draining = true) ∧ (st.drainClosed = true → st.drainErr = none →
        (exec cfg c a s).1.reg.streams.entries = [] ∧
          goAwayFrame ∈ (exec cfg c a s).1.box.conn.wire) by
    obtain ⟨ended, asked, raised, clean⟩ := known _ rfl outcome
    exact ⟨ended, asked, raised, clean⟩
  intro st same outcome
  cases outcome with
  | moved moved =>
    cases moved with
    | same => exact ⟨held.ended, held.asked, held.raised, beyond⟩
    | away => exact ⟨held.ended, fun _ => rfl, held.raised, beyond⟩
    | ended cause running => exact ⟨fun _ => nofun, held.asked, held.raised, beyond⟩
  | asked first running => exact ⟨held.ended, fun _ => rfl, fun _ => rfl, beyond⟩
  | cut cause moved draining unraised =>
    cases moved with
    | same => exact ⟨held.ended, held.asked, fun _ => draining, fun _ => nofun⟩
    | away => exact ⟨held.ended, fun _ => rfl, fun _ => draining, fun _ => nofun⟩
    | ended cause running => exact ⟨fun _ => nofun, held.asked, fun _ => draining, fun _ => nofun⟩
  | clean draining unraised empty flushed =>
    refine ⟨held.ended, held.asked, fun _ => draining, fun _ _ => ?_⟩
    exact ⟨still (held.asked draining) empty, wire_exec cfg c a listed (told.flushed flushed)⟩

theorem drained_run {cfg : Endpoint} {now : Nat} {p : Pool Session Section}
    (run : Reachable (program cfg) (newSession cfg now) p) : Drained p.state := by
  have held := owed_invariant (fun (s : Session) _ => Listed s.reg ∧ Told s ∧ Drained s) ?_
    (fun _ _ _ _ held => held) ?_ run
  · exact held.2.2
  · exact ⟨listed_new cfg now, ⟨fun _ => nofun, nofun⟩, ⟨nofun, nofun, nofun, nofun⟩⟩
  · intro s others a c ready _ held
    obtain ⟨listed, told, drained⟩ := held
    exact ⟨listed_exec cfg c a listed, told_exec cfg c a told, drained_exec cfg c a listed told drained⟩

/-- What Shutdown returns if this section is its last, `none` for nil. A call whose
    context ended goes on to `forceDrain` and returns the context's error. -/
def shutdownReturns (c : Oracle) (s : Session) : Section → Option (Option Cause)
  | .shutdown =>
    if s.status.draining then none
    else if s.status.closed then some s.status.closeErr else none
  | .waitDrain =>
    if c.ctxDone then none else if s.status.drainClosed then some s.status.drainErr else none
  | .forceDrain cause => some (some cause)
  | _ => none

theorem nil_return_clean (held : Drained s) {c : Oracle} {a : Section}
    (returned : shutdownReturns c s a = some none) :
    s.reg.streams.entries = [] ∧ goAwayFrame ∈ s.box.conn.wire := by
  cases a
  case shutdown =>
    simp only [shutdownReturns] at returned
    split at returned
    · cases returned
    · split at returned
      · rename_i closed
        exact absurd (Option.some.inj returned) (held.ended closed)
      · cases returned
  case waitDrain =>
    simp only [shutdownReturns] at returned
    split at returned
    · cases returned
    · split at returned
      · rename_i raised
        exact held.clean raised (Option.some.inj returned)
      · cases returned
  all_goals cases returned

theorem clean_drain (cfg : Endpoint) (now : Nat) (p : Pool Session Section)
    (run : Reachable (program cfg) (newSession cfg now) p) :
    (p.state.status.goAway = true → ∀ q, Reachable (program cfg) p q → ∀ id r,
      q.state.reg.streams.lookup id = some r → p.state.reg.streams.lookup id = some r) ∧
    (∀ c a, shutdownReturns c p.state a = some none →
      p.state.reg.streams.entries = [] ∧ goAwayFrame ∈ p.state.box.conn.wire) ∧
    (p.state.status.drainClosed = true → ∀ q, Reachable (program cfg) p q →
      q.state.status.drainClosed = true ∧ q.state.status.drainErr = p.state.status.drainErr) := by
  refine ⟨?_, ?_, ?_⟩
  · intro away q later
    exact (away_run (listed_run run) away later).2
  · intro c a returned
    exact nil_return_clean (drained_run run) returned
  · intro raised q later
    exact raised_run raised later

/-- Shutdown finds the peer's stream, and returns nil once that was reset. -/
theorem clean_drain_after_reset : ∃ p, Reachable (program single) (newSession single 0) p ∧
    (shutdownReturns {} p.state .waitDrain = some none ∧ p.state.status.goAway = true ∧
      p.state.reg.fresh = 1) ∧
    p.state.reg.streams.entries = [] ∧ goAwayFrame ∈ p.state.box.conn.wire := by
  obtain ⟨p, reached, checked⟩ := replay_reaches
    (List.flatten [synTaken, runs 1 13 {}, [.start .shutdown], runs 2 3 {}, [.start .turnRead],
      runs 3 9 { incoming := .frame (control .windowUpdate { rst := true } 1 0) }])
    (fun p => decide (shutdownReturns {} p.state .waitDrain = some none ∧
      p.state.status.goAway = true ∧ p.state.reg.fresh = 1))
    (P := program single) (p := newSession single 0) (by decide +kernel)
  have drained := of_decide_eq_true checked
  exact ⟨p, reached, drained, (clean_drain single 0 p reached).2.1 {} .waitDrain drained.1⟩

end UmuxDrain
