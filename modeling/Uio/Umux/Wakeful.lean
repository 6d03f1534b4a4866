import Uio.Umux.Stranded
import Uio.Umux.Successors

/-!
No flush is forgotten. While frames wait on an open session, a section that leads
to a flush is owed, or the transport was stirred: it holds unsent bytes, whose
report asks for a flush, or a flush was asked for. A pass that accepts or refuses
a frame leaves the transport stirred; one that spends its whole budget on entries
with nothing to send does not, so a pass has to find a frame within its budget.
-/
namespace UmuxWakeful
open Interleaving UmuxFrame UmuxOutbox UmuxSession UmuxMachine UmuxEdits UmuxStranded
open UmuxLifecycle UmuxTimers UmuxTurn UmuxInbound UmuxOutbound
open UmuxSteps UmuxFootprint
variable (b : Queues) (cfg : Endpoint) (c : Oracle) {a : Section} {s : Session} (now : Nat)
  {others : Multiset Section}

def Works (streams : Table) (tx : Ref → Tx) (id : Nat) : Prop :=
  ∃ r, streams.lookup id = some r ∧ Waits (tx r)

def Work (streams : Table) (q : Queues) : Prop :=
  q.control ≠ [] ∨ ∃ id, Works streams q.tx id

def Stirred (c : Conn) : Prop := 0 < c.unsent ∨ c.flushReq = true

/-- How the transport answers: it asks for a flush together with its wake, forgets
    no wake and stays stirred. -/
structure Spoken (c c' : Conn) : Prop where
  asked : c'.flushReq = true → c.flushReq = true ∨ c'.wakeOwed = true
  owed : c.wakeOwed = true → c'.wakeOwed = true
  stirred : Stirred c → Stirred c'
  refused : c'.refusedIdle = false → c.refusedIdle = false
  closing : c'.closing = c.closing

theorem Spoken.refl (c : Conn) : Spoken c c := ⟨.inl, id, id, id, rfl⟩

theorem Spoken.trans {c c₁ c' : Conn} (first : Spoken c c₁) (second : Spoken c₁ c') :
    Spoken c c' := by
  refine ⟨?_, second.owed ∘ first.owed, second.stirred ∘ first.stirred,
    first.refused ∘ second.refused, second.closing.trans first.closing⟩
  intro asked
  rcases second.asked asked with before | woken
  · exact (first.asked before).imp_right second.owed
  · exact .inr woken

theorem size_pos (f : Frame) : 0 < f.size := by simp [Frame.size, headerSize]

theorem report_spoken (c : Conn) : Spoken c c.report ∧ c.report.flushReq = true := by
  unfold Conn.report
  split
  · rename_i asked
    exact ⟨.refl c, asked⟩
  · exact ⟨⟨fun _ => .inr rfl, fun _ => rfl, fun _ => .inr rfl, id, rfl⟩, rfl⟩

theorem accepted_spoken {c c' : Conn} {f : Frame} {a : Answer}
    (done : c.write f a = (c', .accepted)) : Spoken c c' ∧ Stirred c' := by
  cases a with
  | fail n => simp [Conn.write] at done
  | overflow =>
    simp only [Conn.write] at done
    split at done <;> simp at done
  | accept now =>
    simp only [Conn.write] at done
    split at done
    · simp at done
    · simp only [Prod.mk.injEq, and_true] at done
      subst c'
      have size := size_pos f
      split
      · rename_i none
        have unsent : 0 < c.unsent + f.size - min now (c.unsent + f.size) := by omega
        exact ⟨⟨.inl, id, fun _ => .inl unsent, id, rfl⟩, .inl unsent⟩
      · have reported := report_spoken { c with
          wire := c.wire ++ [f], unsent := c.unsent + f.size - min now (c.unsent + f.size) }
        refine ⟨⟨reported.1.asked, reported.1.owed, fun _ => .inr reported.2,
          reported.1.refused, reported.1.closing⟩, .inr reported.2⟩

theorem overflow_spoken {c c' : Conn} {f : Frame} {a : Answer}
    (done : c.write f a = (c', .overflow)) :
    Spoken c c' ∧ (c'.refusedIdle = false → Stirred c') := by
  rw [write_overflow done]
  refine ⟨⟨.inl, id, id, ?_, rfl⟩, ?_⟩
  · exact fun idle => (Bool.or_eq_false_iff.mp idle).1
  · intro idle
    have held := (Bool.or_eq_false_iff.mp idle).2
    exact .inl (Nat.pos_of_ne_zero (by simpa using held))

theorem failed_spoken {c c' : Conn} {f : Frame} {a : Answer} {e : Cause}
    (done : c.write f a = (c', .failed e)) : Spoken c c' := by
  rw [write_failed done]
  exact ⟨.inl, id, id, id, rfl⟩

theorem flushLoop_spoken (drainObs : Bool) (streams : Table) (budget : Nat) (answers : List Answer)
    (b : Queues) (c : Conn) : Spoken c (flushLoop drainObs streams budget answers b c).1.conn := by
  induction budget generalizing answers b c with
  | zero => exact .refl c
  | succ budget ih =>
    simp only [flushLoop]
    generalize markGoAway b = b
    cases headOf streams b with
    | empty => exact .refl c
    | gone | stale r => exact ih _ _ _
    | control f | data id r f =>
      rcases done : c.write f (answerOf answers) with ⟨c', verdict⟩
      simp only [done]
      cases verdict with
      | accepted => exact (accepted_spoken done).1.trans (ih _ _ _)
      | overflow => exact (overflow_spoken done).1
      | failed e => exact failed_spoken done
    | fin id r =>
      rcases done : c.write (finFrame id) (answerOf answers) with ⟨c', verdict⟩
      simp only [done]
      cases verdict with
      | accepted => exact (accepted_spoken done).1.trans (ih _ _ _)
      | overflow => exact (overflow_spoken done).1
      | failed e => exact failed_spoken done

theorem unqueue_waits (r q : Ref) : Waits ((unqueue r b).tx q) ↔ Waits (b.tx q) := by
  by_cases own : q = r
  · subst q
    rw [unqueue, setTx_same]
    rfl
  · rw [unqueue, setTx_other _ _ own]
    rfl

theorem markGoAway_same : (markGoAway b).control = b.control ∧
    (markGoAway b).pending = b.pending ∧ (markGoAway b).tx = b.tx := by
  unfold markGoAway
  split <;> exact ⟨rfl, rfl, rfl⟩

theorem flushLoop_stirs (drainObs : Bool) (streams : Table) (budget : Nat) (answers : List Answer)
    (b : Queues) (c : Conn)
    (sees : (b.control ≠ [] ∧ 0 < budget) ∨ ∃ id ∈ b.pending.take budget, Works streams b.tx id)
    (holds : (flushLoop drainObs streams budget answers b c).1.conn.refusedIdle = false) :
    (flushLoop drainObs streams budget answers b c).2 ≠ none ∨
      Stirred (flushLoop drainObs streams budget answers b c).1.conn := by
  induction budget generalizing answers b c with
  | zero =>
    rcases sees with ⟨-, positive⟩ | ⟨id, member, -⟩
    · exact absurd positive (Nat.lt_irrefl 0)
    · simp at member
  | succ budget ih =>
    have sees : b.control ≠ [] ∨ ∃ id ∈ b.pending.take (budget + 1), Works streams b.tx id :=
      sees.imp_left And.left
    have marked := markGoAway_same b
    rw [← marked.1, ← marked.2.1, ← marked.2.2] at sees
    have found := headOf_found streams (markGoAway b)
    simp only [flushLoop] at holds ⊢
    generalize markGoAway b = b at found sees holds ⊢
    cases head : headOf streams b with
    | empty =>
      rw [head] at found
      obtain ⟨control, pending⟩ := found
      rcases sees with queued | ⟨id, member, -⟩
      · exact absurd control queued
      · simp [pending] at member
    | gone =>
      rw [head] at found
      obtain ⟨control, id, rest, pending, gone⟩ := found
      rcases sees with queued | ⟨k, member, works⟩
      · exact absurd control queued
      · rw [pending, List.take_succ_cons, List.mem_cons] at member
        rcases member with rfl | member
        · obtain ⟨r, listed, -⟩ := works
          rw [gone] at listed
          cases listed
        · simp only [head] at holds ⊢
          exact ih _ _ _ (.inr ⟨k, by simpa [Queues.popPending, pending] using member, works⟩) holds
    | stale r =>
      rw [head] at found
      obtain ⟨control, id, rest, pending, listed, empty, noFin⟩ := found
      rcases sees with queued | ⟨k, member, works⟩
      · exact absurd control queued
      · rw [pending, List.take_succ_cons, List.mem_cons] at member
        rcases member with rfl | member
        · obtain ⟨q, there, waits⟩ := works
          rw [listed] at there
          cases there
          exact absurd waits (not_or.mpr ⟨not_not.mpr empty, noFin⟩)
        · simp only [head] at holds ⊢
          refine ih _ _ _ (.inr ⟨k, ?_, ?_⟩) holds
          · simpa [unqueue, Queues.setTx, Queues.popPending, pending] using member
          · obtain ⟨q, there, waits⟩ := works
            exact ⟨q, there, (unqueue_waits b r q).mpr waits⟩
    | control f | data id r f =>
      simp only [head] at holds ⊢
      rcases done : c.write f (answerOf answers) with ⟨c', verdict⟩
      simp only [done] at holds ⊢
      cases verdict with
      | accepted => exact .inr ((flushLoop_spoken ..).stirred (accepted_spoken done).2)
      | overflow => exact .inr ((overflow_spoken done).2 holds)
      | failed e => exact .inl (by simp)
    | fin id r =>
      simp only [head] at holds ⊢
      rcases done : c.write (finFrame id) (answerOf answers) with ⟨c', verdict⟩
      simp only [done] at holds ⊢
      cases verdict with
      | accepted => exact .inr ((flushLoop_spoken ..).stirred (accepted_spoken done).2)
      | overflow => exact .inr ((overflow_spoken done).2 holds)
      | failed e => exact .inl (by simp)

theorem flushLoop_idle (drainObs : Bool) (streams : Table) (budget : Nat) (answers : List Answer)
    (b : Queues) (c : Conn) (idle : ¬Work streams b) :
    ¬Work streams (flushLoop drainObs streams budget answers b c).1.toQueues := by
  induction budget generalizing answers b c with
  | zero => exact idle
  | succ budget ih =>
    have marked := markGoAway_same b
    simp only [Work, ← marked.1, ← marked.2.2] at idle
    have found := headOf_found streams (markGoAway b)
    simp only [flushLoop]
    generalize markGoAway b = b at found idle ⊢
    cases head : headOf streams b with
    | empty => exact idle
    | gone => exact ih _ _ _ idle
    | stale r =>
      refine ih _ _ _ ?_
      rintro (queued | ⟨id, q, listed, waits⟩)
      · exact idle (.inl queued)
      · exact idle (.inr ⟨id, q, listed, (unqueue_waits b r q).mp waits⟩)
    | control f =>
      rw [head] at found
      obtain ⟨rest, queued⟩ := found
      exact absurd (.inl (by rw [queued]; exact List.cons_ne_nil f rest)) idle
    | fin id r =>
      rw [head] at found
      obtain ⟨-, rest, -, listed, -, fin⟩ := found
      exact absurd (.inr ⟨id, r, listed, .inr fin⟩) idle
    | data id r f =>
      rw [head] at found
      obtain ⟨-, rest, more, -, listed, out⟩ := found
      exact absurd (.inr ⟨id, r, listed, .inl (by rw [out]; exact List.cons_ne_nil f more)⟩) idle

/-- A pass that starts here spends its budget on something: it finds a frame among
    the entries it can look at, or there is none at all. -/
def Ample (streams : Table) (q : Queues) : Prop :=
  Work streams q → q.control ≠ [] ∨ ∃ id ∈ q.pending.take maxFlushFrames, Works streams q.tx id

theorem pass_spoken {s s' : Session}
    (same : s'.box.conn = s.box.conn) : Spoken s.box.conn (s'.pass cfg c).1.box.conn := by
  rw [← same]
  simp only [Session.pass, flushLocked]
  split
  · exact .refl _
  · exact flushLoop_spoken ..

theorem pass_stirs (ample : Ample s.reg.streams s.box.toQueues) (opened : s.status.closed = false)
    (holds : (s.pass cfg c).1.box.conn.refusedIdle = false)
    (work : Work s.reg.streams (s.pass cfg c).1.box.toQueues) :
    (s.pass cfg c).2 ≠ none ∨ Stirred (s.pass cfg c).1.box.conn := by
  simp only [Session.pass, flushLocked, opened, Bool.false_eq_true, if_false] at holds work ⊢
  have before : Work s.reg.streams s.box.toQueues := by
    by_contra idle
    exact flushLoop_idle _ _ _ _ _ _ idle work
  exact flushLoop_stirs _ _ _ _ _ _ ((ample before).imp_left fun queued => ⟨queued, by decide⟩) holds

/-- The same of a timer round, which takes streams whose Open timed out off the table
    before its pass. -/
def TimerAmple (s : Session) : Prop :=
  Work s.reg.streams s.box.toQueues → s.box.control ≠ [] ∨
    ∃ id ∈ s.box.pending.take maxFlushFrames, ∃ r, s.reg.streams.lookup id = some r ∧
      Waits (s.box.tx r) ∧ (s.life r).opening = false

/-- A round so far: the transport was not spoken to, and on an open session it queued
    a RST or took only opening streams off the table. -/
structure Thinned (s s' : Session) : Prop where
  conn : s'.box.conn = s.box.conn
  life : s'.life = s.life
  status : s'.status = s.status
  rest : s.status.closed = false → s'.box.control ≠ [] ∨
    (s'.box.control = s.box.control ∧ s'.box.pending = s.box.pending ∧
      (∀ id r, s'.reg.streams.lookup id = some r →
        s.reg.streams.lookup id = some r ∧ s'.box.tx r = s.box.tx r) ∧
      ∀ id r, s.reg.streams.lookup id = some r → (s.life r).opening = false →
        s'.reg.streams.lookup id = some r)

theorem thinned_same {s s' : Session} (reg : s'.reg = s.reg) (box : s'.box = s.box)
    (life : s'.life = s.life) (status : s'.status = s.status) : Thinned s s' := by
  refine ⟨by rw [box], life, status, fun _ => .inr ⟨by rw [box], by rw [box], ?_, ?_⟩⟩
  · intro id r here
    rw [reg] at here
    exact ⟨here, by rw [box]⟩
  · intro id r here _
    rw [reg]
    exact here

theorem Thinned.trans {s s₁ s' : Session} (first : Thinned s s₁) (second : Thinned s₁ s') :
    Thinned s s' := by
  refine ⟨second.conn.trans first.conn, second.life.trans first.life,
    second.status.trans first.status, fun opened => ?_⟩
  rcases second.rest (by rw [first.status]; exact opened) with
    queued | ⟨control, pending, fewer, kept⟩
  · exact .inl queued
  · rcases first.rest opened with queued | ⟨control₁, pending₁, fewer₁, kept₁⟩
    · exact .inl (by rwa [control])
    · refine .inr ⟨control.trans control₁, pending.trans pending₁, ?_, ?_⟩
      · intro id r here
        obtain ⟨here₁, tx⟩ := fewer id r here
        obtain ⟨before, tx₁⟩ := fewer₁ id r here₁
        exact ⟨before, tx.trans tx₁⟩
      · intro id r here settled
        exact kept id r (kept₁ id r here settled) (by rw [first.life]; exact settled)

theorem thinned_sendControl {s s' : Session} (f : Frame) (conn : s'.box.conn = s.box.conn)
    (life : s'.life = s.life) (status : s'.status = s.status) : Thinned s (s'.sendControl f) := by
  refine ⟨conn, life, status, fun opened => .inl ?_⟩
  simp [Session.sendControl, Session.setQueues, sendControlLocked, status, opened]

theorem thinned_delist (listed : Listed s.reg) {id : Nat} {r : Ref}
    (here : s.reg.streams.lookup id = some r) (opening : (s.life r).opening = true) :
    Thinned s (forgetWait id (delist id r s)) := by
  refine ⟨rfl, rfl, rfl, fun _ => .inr ⟨rfl, rfl, ?_, ?_⟩⟩
  · intro k q there
    obtain ⟨other, before⟩ := lookup_erase_some there
    have apart : q ≠ r := by
      rintro rfl
      exact other (listed_sameId listed here before)
    exact ⟨before, Function.update_of_ne apart _ _⟩
  · intro k q there settled
    have other : k ≠ id := by
      rintro rfl
      rw [here] at there
      cases there
      rw [opening] at settled
      cases settled
    exact (AList.lookup_erase_ne other).trans there

theorem visitId_thinned {round : Round} (listed : Listed round.state.reg)
    (id : Nat) : Thinned round.state (Round.visitId cfg now round id).state := by
  unfold Round.visitId
  split
  · exact thinned_same rfl rfl rfl rfl
  · rename_i r here
    have running : Thinned round.state (fired now r round.state) := by
      rw [fired_time]
      exact thinned_same rfl rfl rfl rfl
    have visited := visitStream_visited cfg now round id r
    generalize Round.visitStream cfg now round id r = next at visited ⊢
    cases visited with
    | expired cause deadline => exact thinned_sendControl _ rfl rfl rfl
    | unanswered due opening late =>
      refine running.trans (thinned_delist ?_ ?_ ?_)
      · rw [fired_time]
        exact listed
      · rw [fired_time]
        exact here
      · rw [fired_time]
        exact opening
    | halfClosed due half late => exact running.trans (thinned_sendControl _ rfl rfl rfl)
    | stays due still => exact running

theorem visitIds_thinned (ids : List Nat) (round : Round) (listed : Listed round.state.reg) :
    Thinned round.state (ids.foldl (Round.visitId cfg now) round).state := by
  induction ids generalizing round with
  | nil => exact thinned_same rfl rfl rfl rfl
  | cons id rest ih =>
    refine (visitId_thinned cfg now listed id).trans (ih _ ?_)
    exact listed_edits (visitId_edits cfg now round id listed) listed

theorem keepAlive_thinned (s : Session) : Thinned s (keepAlive cfg now s).1 := by
  unfold keepAlive
  (repeat' split) <;>
    first | exact thinned_same rfl rfl rfl rfl | exact thinned_sendControl _ rfl rfl rfl

theorem thinned_ample {s s' : Session} (thinned : Thinned s s') (opened : s.status.closed = false)
    (ample : TimerAmple s) : Ample s'.reg.streams s'.box.toQueues := by
  intro work
  rcases thinned.rest opened with queued | ⟨control, pending, fewer, kept⟩
  · exact .inl queued
  · have before : Work s.reg.streams s.box.toQueues := by
      rcases work with queued | ⟨id, r, here, waits⟩
      · exact .inl (by rwa [← control])
      · obtain ⟨there, tx⟩ := fewer id r here
        exact .inr ⟨id, r, there, by rwa [← tx]⟩
    rcases ample before with queued | ⟨id, member, r, here, waits, settled⟩
    · exact .inl (by rwa [control])
    · have there := kept id r here settled
      refine .inr ⟨id, by rwa [pending], r, there, ?_⟩
      rw [(fewer id r there).2]
      exact waits

def scanned (cfg : Endpoint) (c : Oracle) (s : Session) (now : Nat) : Session :=
  (keepAlive cfg now
    ((visit c.order s.reg.streams).foldl (Round.visitId cfg now) ⟨s, [], [], [], []⟩).state).1

theorem scanned_thinned (listed : Listed s.reg) (now : Nat) : Thinned s (scanned cfg c s now) :=
  (visitIds_thinned cfg now _ ⟨s, [], [], [], []⟩ listed).trans
    (keepAlive_thinned cfg now _)

theorem timerRound_state (s : Session) (now : Nat) :
    (timerRound cfg c s now).1 = ((scanned cfg c s now).pass cfg c).1 := by
  unfold timerRound
  simp only
  split <;> rfl

def leads : Section → Bool
  | .frameData _ _ | .writeDone _ _ | .enqueueFin _ | .closeWriteDone _ | .requestFlush | .onRead
  | .heldReads | .readFrame | .reserveInbound _ _ _ _ | .pushData _ _ _ _ | .establish _ _ _
  | .acceptVet _ _ _ | .afterFrame | .exhaustedBudget | .failTurn _ | .flush | .closeConn _ => true
  | _ => false

/-- The sections that keep the promise by pushing another one, and the ones a turn
    and a report begin with. -/
def relays : Section → Bool
  | .flush | .requestFlush | .closeConn _ | .failTurn _ => false
  | .turnRead => true
  | a => leads a

theorem readFrame_leads (s : Session) : (readFrame cfg c s).2.any leads = true := by
  have taken := readFrame_taken cfg c s
  generalize readFrame cfg c s = step at taken ⊢
  cases taken with
  | ended => rfl
  | failed e => rfl
  | frame f arrived formed valid handled =>
    cases handled with
    | vetted delta metadata peer free => cases cfg.accept <;> rfl
    | _ => rfl

theorem relays_leads (s : Session)
    (relay : relays a = true) : (exec cfg c a s).2.any leads = true := by
  cases a
  case readFrame => exact readFrame_leads cfg c s
  case pushData r payload fin next =>
    simp only [exec, pushData]
    (repeat' split) <;> simp [leads]
  case frameData r p =>
    simp only [exec, frameData]
    (repeat' split) <;> rfl
  case enqueueFin r =>
    simp only [exec, enqueueFin]
    split <;> rfl
  case heldReads =>
    simp only [exec, heldReads]
    (repeat' split) <;> rfl
  case exhaustedBudget =>
    simp only [exec, exhaustedBudget]
    split <;> rfl
  case afterFrame =>
    simp only [exec, afterFrame]
    split <;> rfl
  case acceptVet id delta metadata =>
    simp only [exec, acceptVet]
    (repeat' split) <;> rfl
  all_goals first | (cases relay; done) | rfl

def Open (s : Session) : Prop := s.status.closed = false ∧ s.box.conn.closing = none

structure Wakeful (s : Session) (owing : Multiset Section) : Prop where
  listed : Listed s.reg
  asked : s.box.conn.flushReq = true →
    s.box.conn.wakeOwed = true ∨ .connWake ∈ owing ∨ .onRead ∈ owing
  kept : Open s → s.box.conn.refusedIdle = false → Work s.reg.streams s.box.toQueues →
    s.box.conn.wakeOwed = true ∨ Stirred s.box.conn ∨ ∃ a ∈ owing, leads a = true

/-- The runs the guarantee is about: every pass finds a frame within its budget if
    there is one. The passes that first queue a control frame always do. -/
def Finds (_ : Oracle) (a : Section) (s : Session) : Prop :=
  match a with
  | .flush | .shutdown => Ample s.reg.streams s.box.toQueues
  | .timerRound _ => TimerAmple s
  | _ => True

def passes : Section → Bool
  | .openStream _ | .close _ | .shutdown | .abortStream _ _ | .flush | .sendWindowUpdate _ _
  | .readFrame | .acceptVet _ _ _ | .timerRound _ => true
  | _ => false

theorem sayGoAway_conn (s : Session) : (sayGoAway s).box.conn = s.box.conn := by
  rw [sayGoAway_queues]
  rfl

theorem readFrame_spoken (s : Session) : Spoken s.box.conn (readFrame cfg c s).1.box.conn := by
  have taken := readFrame_taken cfg c s
  generalize readFrame cfg c s = step at taken ⊢
  cases taken with
  | ended => exact .refl _
  | failed e => exact .refl _
  | frame f arrived formed valid handled =>
    cases handled with
    | replied g kind => exact pass_spoken cfg c rfl
    | _ => exact .refl _

theorem exec_spoken (listed : Listed s.reg) (pass : passes a = true) :
    Spoken s.box.conn (exec cfg c a s).1.box.conn := by
  cases a
  case openStream metadata =>
    simp only [exec, openStream]
    split
    · exact .refl _
    · split <;> exact pass_spoken cfg c rfl
  case close cause =>
    simp only [exec, close]
    split
    · exact .refl _
    · rw [finishDrain_status]
      exact pass_spoken cfg c (sayGoAway_conn _)
  case shutdown =>
    simp only [exec, shutdown]
    split
    · exact .refl _
    · split
      · exact .refl _
      · exact pass_spoken cfg c (sayGoAway_conn _)
  case abortStream r cause =>
    simp only [exec, abortStream]
    split
    · exact pass_spoken cfg c rfl
    · exact .refl _
  case flush | sendWindowUpdate id delta => exact pass_spoken cfg c rfl
  case readFrame => exact readFrame_spoken cfg c s
  case acceptVet id delta metadata =>
    simp only [exec, acceptVet]
    (repeat' split) <;> first | exact .refl _ | exact pass_spoken cfg c rfl
  case timerRound now =>
    simp only [exec, timerRound_state]
    exact pass_spoken cfg c (scanned_thinned cfg c listed now).conn
  all_goals cases pass

theorem closing_exec (a : Section) (listed : Listed s.reg)
    (told : s.box.conn.closing.isSome = true) :
    (exec cfg c a s).1.box.conn.closing.isSome = true := by
  by_cases untouched : touches a .conn = false
  · rw [exec_conn cfg c s untouched]
    exact told
  · cases pass : passes a with
    | true =>
      rw [(exec_spoken cfg c listed pass).closing]
      exact told
    | false =>
      cases a
      case transportSent n =>
        simp only [exec, transportSent]
        split <;> exact told
      case requestFlush =>
        simp only [exec, requestFlush]
        split <;> exact told
      case onTransportClose cause =>
        simp only [exec, onTransportClose]
        split
        · exact told
        · rw [finishDrain_status]
          exact told
      case closeConn cause | failTurn cause => rfl
      all_goals first | exact absurd rfl untouched | (cases pass; done) | exact told

theorem work_unlist (r : Ref)
    (work : Work ((s.unlist r).dropOut r).reg.streams ((s.unlist r).dropOut r).box.toQueues) :
    Work s.reg.streams s.box.toQueues := by
  rcases work with queued | ⟨id, q, here, waits⟩
  · exact .inl queued
  · have before : s.reg.streams.lookup id = some q := by
      simp only [Session.dropOut, Session.setQueues, Session.unlist] at here
      split at here
      · exact (lookup_erase_some here).2
      · exact here
    refine .inr ⟨id, q, before, ?_⟩
    by_cases own : q = r
    · subst q
      have empty : ((s.unlist r).dropOut r).box.tx r = {} := setTx_same _ _ _
      rw [empty] at waits
      rcases waits with out | fin
      · exact absurd rfl out
      · cases fin
    · have same : ((s.unlist r).dropOut r).box.tx q = s.box.tx q := setTx_other _ _ own
      rwa [same] at waits

theorem exec_work (off : touches a .conn = false) (idle : leads a = false)
    (work : Work (exec cfg c a s).1.reg.streams (exec cfg c a s).1.box.toQueues) :
    Work s.reg.streams s.box.toQueues := by
  by_cases untouched : touches a .reg = false ∧ touches a .queues = false
  · rwa [exec_reg cfg c s untouched.1,
      exec_queues cfg c s untouched.2] at work
  · cases a
    case emitDrained =>
      simp only [exec, emitDrained] at work
      split at work <;> exact work
    case tryFinish r =>
      simp only [exec, tryFinish] at work
      split at work
      · exact work
      · have before := work_unlist r work
        exact before
    case removeStream r reset | abortRemote r cause => exact work_unlist r work
    all_goals first | exact absurd ⟨rfl, rfl⟩ untouched | (cases off; done) | cases idle

theorem asked_exec (a : Section) (held : Wakeful s (a ::ₘ others))
    (asked : (exec cfg c a s).1.box.conn.flushReq = true) :
    (exec cfg c a s).1.box.conn.wakeOwed = true ∨
      .connWake ∈ (↑(exec cfg c a s).2 + others : Multiset Section) ∨
      .onRead ∈ (↑(exec cfg c a s).2 + others : Multiset Section) := by
  have carried : a ≠ .connWake → a ≠ .onRead →
      ((exec cfg c a s).1.box.conn.flushReq = true →
        s.box.conn.flushReq = true ∨ (exec cfg c a s).1.box.conn.wakeOwed = true) →
      (s.box.conn.wakeOwed = true → (exec cfg c a s).1.box.conn.wakeOwed = true) →
      (exec cfg c a s).1.box.conn.wakeOwed = true ∨
        .connWake ∈ (↑(exec cfg c a s).2 + others : Multiset Section) ∨
        .onRead ∈ (↑(exec cfg c a s).2 + others : Multiset Section) := by
    intro notWake notRead reported stays
    rcases reported asked with before | woken
    · rcases held.asked before with owed | wake | read
      · exact .inl (stays owed)
      · exact .inr (.inl (Multiset.mem_add.mpr
          (.inr ((Multiset.mem_cons.mp wake).resolve_left notWake.symm))))
      · exact .inr (.inr (Multiset.mem_add.mpr
          (.inr ((Multiset.mem_cons.mp read).resolve_left notRead.symm))))
    · exact .inl woken
  by_cases untouched : touches a .conn = false
  · have same := exec_conn cfg c s untouched
    refine carried ?_ ?_ (by rw [same]; exact .inl) (by rw [same]; exact id)
    · rintro rfl
      cases untouched
    · rintro rfl
      cases untouched
  · by_cases pass : passes a = true
    · have spoken := exec_spoken cfg c held.listed pass
      refine carried ?_ ?_ spoken.asked spoken.owed
      · rintro rfl
        cases pass
      · rintro rfl
        cases pass
    · cases a
      case turnRead => exact .inr (.inr (Multiset.mem_add.mpr (.inl (by simp [exec, turnRead]))))
      case onRead => cases asked
      case connWake => exact .inl rfl
      case requestFlush =>
        by_cases before : s.box.conn.flushReq = true
        · have same : exec cfg c .requestFlush s = (s, []) := by
            simp [exec, requestFlush, before]
          refine carried (by simp) (by simp) ?_ ?_ <;> rw [same]
          · exact .inl
          · exact id
        · refine .inr (.inl (Multiset.mem_add.mpr (.inl ?_)))
          simp [exec, requestFlush, before]
      case transportSent n =>
        refine carried (by simp) (by simp) ?_ ?_ <;> simp only [exec, transportSent] <;> split
        · exact .inl
        · exact .inl
        · exact id
        · exact id
      case closeConn cause | failTurn cause => exact carried (by simp) (by simp) .inl id
      case onTransportClose cause =>
        by_cases closed : s.status.closed = true
        · have same : exec cfg c (.onTransportClose cause) s = (s, [.turnEnd]) := by
            simp [exec, onTransportClose, closed]
          refine carried (by simp) (by simp) ?_ ?_ <;> rw [same]
          · exact .inl
          · exact id
        · simp [exec, onTransportClose, closed] at asked
      all_goals first | exact absurd rfl untouched | exact absurd rfl pass

def Kept (s : Session) (owing : Multiset Section) : Prop :=
  s.box.conn.wakeOwed = true ∨ Stirred s.box.conn ∨ ∃ a ∈ owing, leads a = true

theorem kept_pushed {more : List Section}
    (pushed : more.any leads = true) : Kept s (↑more + others) := by
  obtain ⟨a, member, leading⟩ := List.any_eq_true.mp pushed
  exact .inr (.inr ⟨a, Multiset.mem_add.mpr (.inl (Multiset.mem_coe.mpr member)), leading⟩)

theorem kept_carried {s s' : Session} {more : List Section} (idle : leads a = false)
    (spoken : Spoken s.box.conn s'.box.conn)
    (held : Kept s (a ::ₘ others)) : Kept s' (↑more + others) := by
  rcases held with owed | stirred | ⟨b, member, leading⟩
  · exact .inl (spoken.owed owed)
  · exact .inr (.inl (spoken.stirred stirred))
  · refine .inr (.inr ⟨b, Multiset.mem_add.mpr (.inr ?_), leading⟩)
    refine (Multiset.mem_cons.mp member).resolve_left ?_
    rintro rfl
    rw [idle] at leading
    cases leading

theorem closeOn_leads {e : Option Cause} (failed : e ≠ none) : (closeOn e).any leads = true := by
  cases e with
  | none => exact absurd rfl failed
  | some e => rfl

theorem kept_pass {cfg : Endpoint} {c : Oracle} {s s' : Session} {more : List Section}
    (ample : Ample s.reg.streams s.box.toQueues)
    (opened : s.status.closed = false) (conn : s'.box.conn = (s.pass cfg c).1.box.conn)
    (failed : (s.pass cfg c).2 ≠ none → more.any leads = true)
    (holds : s'.box.conn.refusedIdle = false)
    (work : Work s.reg.streams (s.pass cfg c).1.box.toQueues) : Kept s' (↑more + others) := by
  rw [conn] at holds
  rcases pass_stirs cfg c ample opened holds work with wrong | stirred
  · exact kept_pushed (failed wrong)
  · exact .inr (.inl (by rwa [conn]))

theorem ample_sendControl (opened : s.status.closed = false) (f : Frame) :
    Ample (s.sendControl f).reg.streams (s.sendControl f).box.toQueues := by
  intro _
  simp [Session.sendControl, Session.setQueues, sendControlLocked, opened]

theorem ample_sayGoAway (ample : Ample s.reg.streams s.box.toQueues)
    (opened : s.status.closed = false) :
    Ample (sayGoAway s).reg.streams (sayGoAway s).box.toQueues := by
  unfold sayGoAway
  split
  · exact ample
  · exact ample_sendControl (s := s.setQueues { s.box.toQueues with goAwaySent := true }) opened _

theorem kept_openStream (s : Session) (metadata : List UInt8)
    (held : Work s.reg.streams s.box.toQueues → Kept s (.openStream metadata ::ₘ others))
    (opened : s.status.closed = false)
    (holds : (openStream cfg c s metadata).1.box.conn.refusedIdle = false)
    (work : Work (openStream cfg c s metadata).1.reg.streams
      (openStream cfg c s metadata).1.box.toQueues) :
    Kept (openStream cfg c s metadata).1 (↑(openStream cfg c s metadata).2 + others) := by
  unfold openStream at holds work ⊢
  split at holds
  · rename_i refused
    simp only [refused, if_true] at holds work ⊢
    exact kept_carried (a := .openStream metadata) rfl (.refl _) (held work)
  · rename_i accepted
    simp only [accepted, if_false] at holds work ⊢
    split at holds
    · rename_i done
      simp only [done] at work ⊢
      refine kept_pass (fun _ => .inl ?_) ?_ rfl ?_ holds work
      · simp [Session.queueControl, Session.setQueues]
      · exact opened
      · exact fun failed => absurd done failed
    · rename_i e done
      exact kept_pushed (by simp [leads])

theorem kept_abortStream (s : Session) (r : Ref) (cause : Cause)
    (held : Work s.reg.streams s.box.toQueues → Kept s (.abortStream r cause ::ₘ others))
    (opened : s.status.closed = false)
    (holds : (abortStream cfg c s r cause).1.box.conn.refusedIdle = false)
    (work : Work (abortStream cfg c s r cause).1.reg.streams
      (abortStream cfg c s r cause).1.box.toQueues) :
    Kept (abortStream cfg c s r cause).1 (↑(abortStream cfg c s r cause).2 + others) := by
  unfold abortStream at holds work ⊢
  by_cases live : s.live r = true
  · simp only [live, if_true] at holds work ⊢
    refine kept_pass (ample_sendControl (s := (s.unlist r).dropOut r) opened _) opened rfl ?_
      holds work
    intro failed
    simp [closeOn_leads failed]
  · simp only [live] at holds work ⊢
    exact kept_carried (a := .abortStream r cause) rfl (.refl _) (held (work_unlist r work))

theorem kept_shutdown (s : Session)
    (held : Work s.reg.streams s.box.toQueues → Kept s (.shutdown ::ₘ others))
    (ample : Ample s.reg.streams s.box.toQueues) (opened : s.status.closed = false)
    (holds : (shutdown cfg c s).1.box.conn.refusedIdle = false)
    (work : Work (shutdown cfg c s).1.reg.streams (shutdown cfg c s).1.box.toQueues) :
    Kept (shutdown cfg c s).1 (↑(shutdown cfg c s).2 + others) := by
  by_cases draining : s.status.draining = true
  · have same : shutdown cfg c s = (s, [.waitDrain]) := by simp only [shutdown, draining, if_true]
    rw [same] at work ⊢
    exact kept_carried (a := .shutdown) rfl (.refl _) (held work)
  · unfold shutdown at holds work ⊢
    rw [if_neg draining, if_neg (by rw [opened]; simp)] at holds work ⊢
    refine kept_pass (s := sayGoAway
      { s with status := { s.status with draining := true, goAway := true } })
      (ample_sayGoAway ample opened) ?_ rfl ?_ holds work
    · rw [sayGoAway_queues]
      exact opened
    · intro failed
      simp [closeOn_leads failed]

theorem kept_timerRound (listed : Listed s.reg) (ample : TimerAmple s)
    (opened : s.status.closed = false)
    (holds : (timerRound cfg c s now).1.box.conn.refusedIdle = false)
    (work : Work (timerRound cfg c s now).1.reg.streams (timerRound cfg c s now).1.box.toQueues) :
    Kept (timerRound cfg c s now).1 (↑(timerRound cfg c s now).2 + others) := by
  have thinned := scanned_thinned cfg c listed now
  rw [timerRound_state] at work
  refine kept_pass (thinned_ample thinned opened ample) ?_ ?_ ?_ holds work
  · rw [thinned.status]
    exact opened
  · rw [timerRound_state]
  · intro failed
    unfold timerRound
    simp only
    split
    · simp [leads]
    · rename_i none
      split at none
      · cases none
      · exact absurd none failed

theorem kept_exec (a : Section) (finds : Finds c a s) (held : Wakeful s (a ::ₘ others))
    (opened : Open (exec cfg c a s).1) (holds : (exec cfg c a s).1.box.conn.refusedIdle = false)
    (work : Work (exec cfg c a s).1.reg.streams (exec cfg c a s).1.box.toQueues) :
    Kept (exec cfg c a s).1 (↑(exec cfg c a s).2 + others) := by
  have before : (∀ cause, a ≠ .onTransportClose cause) → s.status.closed = false := by
    intro other
    rw [← exec_closed cfg c s other]
    exact opened.1
  have owed : (∀ cause, a ≠ .onTransportClose cause) →
      Spoken s.box.conn (exec cfg c a s).1.box.conn →
      Work s.reg.streams s.box.toQueues → Kept s (a ::ₘ others) := by
    intro other spoken waiting
    exact held.kept ⟨before other, spoken.closing ▸ opened.2⟩ (spoken.refused holds) waiting
  by_cases relay : relays a = true
  · exact kept_pushed (relays_leads cfg c s relay)
  · by_cases untouched : touches a .conn = false
    · have idle : leads a = false := by
        cases a <;> first | rfl | exact absurd rfl relay | cases untouched
      have other : ∀ cause, a ≠ .onTransportClose cause := by
        rintro cause rfl
        cases untouched
      have spoken : Spoken s.box.conn (exec cfg c a s).1.box.conn := by
        rw [exec_conn cfg c s untouched]
        exact .refl _
      exact kept_carried idle spoken (owed other spoken (exec_work cfg c untouched idle work))
    · cases a
      case requestFlush =>
        refine .inr (.inl (.inr ?_))
        simp only [exec, requestFlush]
        split
        · assumption
        · rfl
      case connWake => exact .inl rfl
      case closeConn cause | failTurn cause => cases opened.2
      case transportSent n =>
        by_cases none : min n s.box.conn.unsent = 0
        · have same : exec cfg c (.transportSent n) s = (s, []) := by
            simp only [exec, transportSent, none, if_true]
          rw [same] at work ⊢
          have spoken : Spoken s.box.conn (exec cfg c (.transportSent n) s).1.box.conn := by
            rw [same]
            exact .refl _
          exact kept_carried (a := .transportSent n) rfl (.refl _) (owed (by simp) spoken work)
        · refine kept_pushed ?_
          simp only [exec, transportSent, none, if_false]
          rfl
      case onTransportClose cause =>
        have closed : (exec cfg c (.onTransportClose cause) s).1.status.closed = true := by
          simp only [exec, onTransportClose]
          split
          · assumption
          · rfl
        rw [opened.1] at closed
        cases closed
      case openStream metadata =>
        exact kept_openStream cfg c s metadata
          (owed (by simp) (exec_spoken cfg c held.listed rfl)) (before (by simp)) holds work
      case close cause =>
        refine kept_pushed ?_
        simp only [exec, close, before (by simp)]
        rfl
      case shutdown =>
        exact kept_shutdown cfg c s
          (owed (by simp) (exec_spoken cfg c held.listed rfl)) finds (before (by simp)) holds work
      case abortStream r cause =>
        exact kept_abortStream cfg c s r cause
          (owed (by simp) (exec_spoken cfg c held.listed rfl)) (before (by simp)) holds work
      case flush =>
        refine kept_pass finds (before (by simp)) rfl ?_ holds work
        intro failed
        simp [exec, flush, closeOn_leads failed]
      case sendWindowUpdate id delta =>
        refine kept_pass (ample_sendControl (before (by simp)) _) (before (by simp)) rfl ?_ holds work
        intro failed
        simp [exec, sendWindowUpdate, closeOn_leads failed]
      case timerRound now =>
        exact kept_timerRound cfg c now held.listed finds (before (by simp)) holds work
      all_goals first | exact absurd rfl untouched | exact absurd rfl relay

theorem wakeful_new : Wakeful (newSession cfg now).state (owed (newSession cfg now)) := by
  refine ⟨(onList_new cfg now).listed, nofun, ?_⟩
  rintro - - (queued | ⟨id, r, here, -⟩)
  · exact absurd rfl queued
  · simp only [newSession, AList.lookup_empty] at here
    cases here

theorem wakeful_run {cfg : Endpoint} {now : Nat} {p : Pool Session Section}
    (run : Run (program cfg) Finds (newSession cfg now) p) : Wakeful p.state (owed p) := by
  refine owed_invariant Wakeful (wakeful_new cfg now) ?_ ?_ run
  · intro s others a entry held
    refine ⟨held.listed, ?_, ?_⟩
    · intro asked
      exact (held.asked asked).imp_right
        (.imp (Multiset.mem_cons_of_mem ·) (Multiset.mem_cons_of_mem ·))
    · intro opened holds work
      refine (held.kept opened holds work).imp_right (.imp_right ?_)
      rintro ⟨b, member, leading⟩
      exact ⟨b, Multiset.mem_cons_of_mem member, leading⟩
  · intro s others a c ready finds held
    refine ⟨listed_exec cfg c a held.listed, asked_exec cfg c a held, ?_⟩
    intro opened holds work
    exact kept_exec cfg c a finds held opened holds work

theorem leads_not_parked (leading : leads a = true) : isParked a = false := by
  cases a <;> first | rfl | cases leading

/-- In a run whose passes all find a frame within their budget, no flush is forgotten:
    while frames wait on an open session at rest, a wake is owed, or the transport holds
    bytes whose report will ask for one. -/
theorem flush_not_forgotten {cfg : Endpoint} {now : Nat} {p : Pool Session Section}
    (run : Run (program cfg) Finds (newSession cfg now) p) (quiet : Quiet p)
    (opened : Open p.state) (holds : p.state.box.conn.refusedIdle = false)
    (work : Work p.state.reg.streams p.state.box.toQueues) : p.state.box.conn.wakeOwed = true ∨
      (0 < p.state.box.conn.unsent ∧ p.state.box.conn.flushReq = false) := by
  have held := wakeful_run run
  have asked : p.state.box.conn.flushReq = true → p.state.box.conn.wakeOwed = true := by
    intro asked
    rcases held.asked asked with owed | wake | read
    · exact owed
    · cases quiet _ wake
    · cases quiet _ read
  cases request : p.state.box.conn.flushReq with
  | true => exact .inl (asked request)
  | false =>
    rcases held.kept opened holds work with owed | (unsent | wrong) | ⟨a, member, leading⟩
    · exact .inl owed
    · exact .inr ⟨unsent, rfl⟩
    · rw [request] at wrong
      cases wrong
    · have awake := leads_not_parked leading
      rw [quiet a member] at awake
      cases awake

/-- Two Opens: the transport takes the first SYN and refuses the second. -/
def refusedOpen : List (Move Section Oracle) :=
  [.run 0 {}, .run 0 {}, .run 0 {}, .run 0 {}, .start (.openStream []), .run 1 {}, .run 1 {},
    .run 1 {}, .start (.openStream []), .run 2 { answers := [.overflow] }, .run 2 {}, .run 2 {}]

def noPass : Section → Bool
  | .flush | .shutdown | .timerRound _ => false
  | _ => true

theorem finds_noPass (a : Section) (s : Session) (test : noPass a = true) : Finds c a s := by
  cases a <;> trivial

theorem flush_not_forgotten_after_refusal :
    ∃ p, Run (program (endpoint {} true)) Finds (newSession (endpoint {} true) 0) p ∧
      p.state.box.control ≠ [] ∧ (p.state.box.conn.wakeOwed = true ∨
        (0 < p.state.box.conn.unsent ∧ p.state.box.conn.flushReq = false)) := by
  obtain ⟨p, run, checked⟩ := replay_runs (P := program (endpoint {} true)) finds_noPass
    (p := newSession (endpoint {} true) 0)
    (fun p => p.threads.flatten.all isParked && !p.state.status.closed &&
      p.state.box.conn.closing.isNone && !p.state.box.conn.refusedIdle &&
      !p.state.box.control.isEmpty) refusedOpen (by decide) (by decide)
  simp only [Bool.and_eq_true, Bool.not_eq_true', Option.isNone_iff_eq_none, List.all_eq_true,
    List.isEmpty_eq_false_iff] at checked
  obtain ⟨⟨⟨⟨quiet, opened⟩, closing⟩, holds⟩, queued⟩ := checked
  exact ⟨p, run, queued, flush_not_forgotten run quiet ⟨opened, closing⟩ holds (.inl queued)⟩

end UmuxWakeful
