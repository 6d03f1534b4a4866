import Uio.Umux.Birth
import Uio.Umux.Flags
import Uio.Umux.Successors

/-!
Streams leave the table before they are closed. A reset is only ever left to run
for an object that exists and that the table no longer names, since every removal
comes first and no object is put back; so a stream of the table is not closed.
-/
namespace UmuxRemoval
open Interleaving UmuxFrame UmuxOutbox UmuxSession UmuxMachine UmuxLifecycle UmuxTimers UmuxTurn
open UmuxInbound UmuxFootprint UmuxEdits UmuxBirth UmuxFlags UmuxSuccessors UmuxSteps
open List (forall_mem_append forall_mem_cons forall_mem_nil)
variable (cfg : Endpoint) (c : Oracle) (a : Section) {s : Session} {r : Ref} (reg : Registry)
  {b : Section}

/-- The stream an internal section is about: those that end a stream, wait for its
    Open, or bring it a frame. -/
def named : Section → Option Ref
  | .resetStream r _ | .abortRemote r _ | .removeStream r _ | .waitOpen r
  | .reserveInbound r _ _ _ | .pushData r _ _ _ | .establish r _ _ | .grantWindow r _ => some r
  | _ => none

def Absent (reg : Registry) (r : Ref) : Prop := r < reg.fresh ∧ ∀ id, reg.streams.lookup id ≠ some r

theorem absent_edit {o o' : Outward} (edit : Edit cfg o o') (absent : Absent o.reg r) :
    Absent o'.reg r := by
  cases edit with
  | shrunk streams openWait fewer waits =>
    exact ⟨absent.1, fun id found => absent.2 id (fewer id r found)⟩
  | created id openWait nextID waits =>
    refine ⟨Nat.lt_succ_of_lt absent.1, fun k found => ?_⟩
    rw [lookup_create] at found
    split at found
    · cases found
      exact Nat.lt_irrefl _ absent.1
    · exact absent.2 k found
  | _ => exact absent

theorem absent_exec
    (listed : Listed s.reg) (absent : Absent s.reg r) : Absent (exec cfg c a s).1.reg r := by
  by_cases edits : queues a = false
  · exact Edits.preserve (I := fun o => Absent o.reg r) (fun _ _ => absent_edit cfg)
      (exec_edits cfg c listed edits) absent
  · have untouched : touches a .reg = false := by
      cases a <;> first | rfl | exact absurd rfl edits
    rw [exec_reg cfg c s untouched]
    exact absent

theorem absent_unlist (listed : Listed s.reg) (old : r < s.reg.fresh) :
    Absent (s.unlist r).reg r := by
  refine ⟨old, fun id found => ?_⟩
  simp only [Session.unlist] at found
  split at found
  · obtain ⟨other, before⟩ := lookup_erase_some found
    exact other (listed.streams id r before).2.symm
  · rename_i gone
    exact gone (live_iff.mpr (by rw [(listed.streams id r found).2]; exact found))

theorem absent_delist (listed : Listed s.reg) {id : Nat} (here : s.reg.streams.lookup id = some r) :
    Absent { s.reg with streams := s.reg.streams.erase id } r := by
  refine ⟨(listed.streams id r here).1, fun k found => ?_⟩
  obtain ⟨other, before⟩ := lookup_erase_some found
  exact other (listed_sameId listed here before)

def Off (reg : Registry) (more : List Section) : Prop :=
  ∀ b ∈ more, ∀ r, named b = some r → Absent reg r

theorem off_nil : Off reg [] := fun _ member => absurd member List.not_mem_nil

theorem off_append {reg : Registry} {first second : List Section} (one : Off reg first)
    (two : Off reg second) : Off reg (first ++ second) := by
  intro b member
  rcases List.mem_append.mp member with before | after
  · exact one b before
  · exact two b after

theorem off_answerAll (w : Option Ref) (result : Option Cause) : Off reg (answerAll w result) := by
  intro b member r about
  cases w with
  | none => cases member
  | some w =>
    rw [List.mem_singleton.mp member] at about
    cases about

theorem off_reset {reg : Registry} (absent : Absent reg r) (e : Cause) :
    Off reg [.resetStream r e] := by
  intro b member q about
  rw [List.mem_singleton.mp member] at about
  cases about
  exact absent

def Round.Removes (round : Round) : Prop :=
  Off round.state.reg round.openFails ∧ Off round.state.reg round.resets ∧
    Off round.state.reg round.deadlineResets

theorem visitId_removes (now : Nat) {round : Round} (id : Nat)
    (listed : Listed round.state.reg) (removes : Round.Removes round) :
    Round.Removes (Round.visitId cfg now round id) := by
  have kept : ∀ {more}, Off round.state.reg more →
      Off (Round.visitId cfg now round id).state.reg more := by
    intro more off b member r about
    exact Edits.preserve (I := fun o => Absent o.reg r) (fun _ _ => absent_edit cfg)
      (visitId_edits cfg now round id listed) (off b member r about)
  obtain ⟨fails, resets, deadlines⟩ := removes
  have fails := kept fails
  have resets := kept resets
  have deadlines := kept deadlines
  clear kept
  unfold Round.visitId at fails resets deadlines ⊢
  cases found : round.state.reg.streams.lookup id with
  | none =>
    simp only [found] at fails resets deadlines ⊢
    exact ⟨fails, resets, deadlines⟩
  | some r =>
    simp only [found] at fails resets deadlines ⊢
    have gone := absent_delist listed found
    have running : (fired now r round.state).reg = round.state.reg := by rw [fired_time]
    have visited := visitStream_visited cfg now round id r
    generalize Round.visitStream cfg now round id r = next at visited fails resets deadlines ⊢
    cases visited with
    | expired cause deadline =>
      exact ⟨fails, resets, off_append (off_append deadlines (off_answerAll _ _ _)) (off_reset gone _)⟩
    | unanswered due opening late =>
      rw [← running] at gone
      exact ⟨off_append fails (off_answerAll _ _ _), off_append resets (off_reset gone _), deadlines⟩
    | halfClosed due half late =>
      rw [← running] at gone
      exact ⟨fails, off_append resets (off_reset gone _), deadlines⟩
    | stays due still => exact ⟨fails, resets, deadlines⟩

theorem visitIds_removes (now : Nat) (ids : List Nat) (round : Round)
    (listed : Listed round.state.reg) (removes : Round.Removes round) :
    Round.Removes (ids.foldl (Round.visitId cfg now) round) := by
  induction ids generalizing round with
  | nil => exact removes
  | cons id rest ih =>
    exact ih _ (listed_edits (visitId_edits cfg now round id listed) listed)
      (visitId_removes cfg now id listed removes)

/-- An owed section is about an object that exists, and a reset about one that the
    table does not name. -/
def Fit (reg : Registry) : Section → Prop
  | .resetStream r _ => Absent reg r
  | b => ∀ r, named b = some r → r < reg.fresh

structure Removed (s : Session) (owing : Multiset Section) : Prop where
  listed : Listed s.reg
  fit : ∀ b ∈ owing, Fit s.reg b
  closed : ∀ r < s.reg.fresh, (s.life r).closedLocal = true → Absent s.reg r

theorem fit_old {reg : Registry} (fit : Fit reg b) (about : named b = some r) : r < reg.fresh := by
  cases b <;> first | exact fit r about | (cases about; exact fit.1)

theorem fit_of_old {reg : Registry} (old : r < reg.fresh)
    (about : named b = some r) (other : ∀ e, b ≠ .resetStream r e) : Fit reg b := by
  cases b
  case resetStream q e =>
    cases about
    exact absurd rfl (other e)
  all_goals
    intro q same
    rw [about] at same
    cases same
    exact old

theorem fit_plain (plain : named b = none) : Fit reg b := by
  cases b <;> first | (intro r wrong; cases wrong; done) | cases plain

theorem fit_all {more : List Section}
    (plain : more.all (fun b => (named b).isNone) = true) : ∀ b ∈ more, Fit reg b := by
  intro b member
  exact fit_plain reg (Option.isNone_iff_eq_none.mp (List.all_eq_true.mp plain b member))

theorem fit_exec (listed : Listed s.reg) (fit : Fit s.reg b) : Fit (exec cfg c a s).1.reg b := by
  cases b
  case resetStream r e => exact absent_exec cfg c a listed fit
  all_goals
    intro r about
    exact Nat.lt_of_lt_of_le (fit r about) (fresh_grows cfg c a s)

def about : Group → Bool
  | .removal | .waiting | .spine | .grant => true
  | _ => false

theorem fit_of_group (other : about (group b) = false) : Fit reg b := by
  cases b <;> first | (intro r wrong; cases wrong; done) | cases other

theorem fit_of_gathered {reg : Registry} {more : List Section} (plain : more.all gathered = true)
    (off : Off reg more) (member : b ∈ more) : Fit reg b := by
  have one := List.all_eq_true.mp plain b member
  cases b
  case resetStream r e => exact off _ member r rfl
  case answer w result => nofun
  all_goals cases one

theorem readFrame_fit (listed : Listed s.reg) :
    ∀ b ∈ (readFrame cfg c s).2, Fit (readFrame cfg c s).1.reg b := by
  have taken := readFrame_taken cfg c s
  generalize readFrame cfg c s = step at taken ⊢
  cases taken with
  | ended | failed e => exact fit_all _ rfl
  | frame f arrived formed valid handled =>
    have old : ∀ r, (receive f s).reg.streams.lookup f.hdr.streamID = some r →
        r < (receive f s).reg.fresh := fun r here => (listed.streams _ r here).1
    cases handled with
    | vetted delta metadata peer free => cases cfg.accept <;> exact fit_all _ rfl
    | charged r next data here filled | acked r w here waiting =>
      exact List.forall_mem_singleton.mpr (fit_of_old (old r here) rfl nofun)
    | bare r fin next here => exact List.forall_mem_singleton.mpr (fit_of_old (old r here) rfl nofun)
    | reset r here | granted r here =>
      exact List.forall_mem_cons.mpr ⟨fit_of_old (old r here) rfl nofun, fit_all _ rfl⟩
    | _ => exact fit_all _ rfl

theorem afterPush_fit {reg : Registry} (old : r < reg.fresh) (next : AfterPush) :
    ∀ b ∈ afterPush r next, Fit reg b := by
  cases next with
  | reset => exact List.forall_mem_cons.mpr ⟨fit_of_old old rfl (by simp), (by simp)⟩
  | dispatch => exact fit_all _ rfl
  | dispatchGrant delta =>
    simp only [afterPush]
    split
    · exact fit_all _ rfl
    · exact List.forall_mem_cons.mpr ⟨fit_plain _ rfl,
        List.forall_mem_cons.mpr ⟨fit_of_old old rfl (by simp), (by simp)⟩⟩

theorem closeOn_fit (e : Option Cause) : ∀ b ∈ closeOn e, Fit reg b := by
  cases e <;> exact fit_all _ rfl

theorem answerAll_fit (w : Option Ref) (result : Option Cause) :
    ∀ b ∈ answerAll w result, Fit reg b := by
  cases w <;> exact fit_all _ rfl

theorem grantOf_fit (id grant : Nat) : ∀ b ∈ grantOf id grant, Fit reg b := by
  unfold grantOf
  split <;> exact fit_all _ rfl

theorem timerRound_fit (listed : Listed s.reg) (now : Nat) :
    ∀ b ∈ (timerRound cfg c s now).2, Fit (timerRound cfg c s now).1.reg b := by
  have plain := visitIds_plain cfg now (visit c.order s.reg.streams) ⟨s, [], [], [], []⟩ ⟨rfl, rfl, rfl⟩
  have removes := visitIds_removes cfg now (visit c.order s.reg.streams) ⟨s, [], [], [], []⟩ listed
    ⟨off_nil _, off_nil _, off_nil _⟩
  have reg : (timerRound cfg c s now).1.reg = ((visit c.order s.reg.streams).foldl
      (Round.visitId cfg now) ⟨s, [], [], [], []⟩).state.reg := by
    unfold timerRound
    simp only
    split <;> exact keepAlive_reg cfg now _
  rw [reg]
  unfold timerRound
  simp only
  generalize (visit c.order s.reg.streams).foldl (Round.visitId cfg now) ⟨s, [], [], [], []⟩ = round
    at plain removes
  have ending : ∀ b ∈ round.openFails ++ round.resets ++ round.deadlineResets, Fit round.state.reg b := by
    simp only [forall_mem_append]
    exact ⟨⟨fun _ => fit_of_gathered plain.1 removes.1, fun _ => fit_of_gathered plain.2.1 removes.2.1⟩,
      fun _ => fit_of_gathered plain.2.2 removes.2.2⟩
  split
  · rw [forall_mem_append]
    exact ⟨ending, fit_all _ rfl⟩
  · rw [forall_mem_append, forall_mem_append]
    refine ⟨⟨ending, ?_⟩, fit_all _ rfl⟩
    split
    · simp only [List.forall_mem_flatMap]
      exact fun _ _ => fit_all _ rfl
    · exact nofun

/-- What a section leaves to run is about streams that exist, and it resets only what
    it took off the table. -/
theorem pushed_fit {a : Section} (listed : Listed s.reg)
    (ready : ready a s = true) (fit : Fit s.reg a) :
    ∀ b ∈ (exec cfg c a s).2, Fit (exec cfg c a s).1.reg b := by
  by_cases plain : (pushes a).any about = false
  · intro b member
    refine fit_of_group _ ?_
    have grouped := pushed_group cfg c member
    cases held : about (group b) with
    | false => rfl
    | true =>
      have wrong : (pushes a).any about = true :=
        List.any_eq_true.mpr ⟨group b, by simpa using grouped, held⟩
      rw [plain] at wrong
      cases wrong
  · cases a
    case timerRound now => exact timerRound_fit cfg c listed now
    case readFrame => exact readFrame_fit cfg c listed
    case pushData r payload fin next =>
      have old : r < s.reg.fresh := fit r rfl
      have pushed := afterPush_fit old next
      have framed : ∀ b ∈ afterPush r next ++ [Section.afterFrame], Fit s.reg b := by
        rw [forall_mem_append]
        exact ⟨pushed, fit_all _ rfl⟩
      have same : (filled s r payload).reg = s.reg := by
        unfold filled
        split <;> rfl
      have pushed := pushData_pushed s r payload fin next
      simp only [exec]
      generalize pushData s r payload fin next = step at pushed ⊢
      cases pushed with
      | late closed => exact List.forall_mem_cons.mpr ⟨fit_plain _ rfl, framed⟩
      | overrun running brought past => exact fit_all _ rfl
      | taken running fits =>
        rw [same]
        exact framed
      | ended running fits first =>
        have ends : (peerEnds r (filled s r payload)).reg = s.reg := same
        rw [ends, List.append_assoc, forall_mem_append]
        refine ⟨?_, framed⟩
        split <;> exact fit_all _ rfl
    case openStream metadata =>
      simp only [exec, openStream]
      split
      · simp
      · split
        · simp only [forall_mem_cons]
          exact ⟨fit_plain _ rfl, fit_plain _ rfl, fit_of_old (Nat.lt_succ_self _) rfl (by simp), (by simp)⟩
        · simp only [forall_mem_cons]
          exact ⟨fit_plain _ rfl, fit_plain _ rfl, fit_of_old (Nat.lt_succ_self _) rfl (by simp), fit_plain _ rfl, (by simp)⟩
    case acceptVet id delta metadata =>
      simp only [exec, acceptVet]
      split
      · exact fit_all _ rfl
      · split
        · exact fit_all _ rfl
        · split
          · exact fit_all _ rfl
          · split
            · simp only [forall_mem_cons]
              exact ⟨fit_plain _ rfl, fit_of_old (Nat.lt_succ_self _) rfl (by simp), fit_plain _ rfl, (by simp)⟩
            · (repeat' split) <;> exact fit_all _ rfl
    case waitOpen r =>
      have old : r < s.reg.fresh := fit r rfl
      simp only [exec, waitOpen]
      (repeat' split) <;> simp only [forall_mem_cons, List.not_mem_nil, false_implies, implies_true,
        and_true] <;> first | exact fit_plain _ rfl | exact fit_of_old old rfl (by simp)
    case abortStream r cause =>
      have old : r < s.reg.fresh := by simpa [subject] using (Bool.and_eq_true_iff.mp ready).1
      have gone := absent_unlist listed old
      have ending : ∀ b ∈ answerAll (s.waiter r) (some cause) ++ [Section.resetStream r cause],
          Fit (s.unlist r).reg b := by
        rw [forall_mem_append]
        exact ⟨answerAll_fit _ _ _, by simpa [Fit] using gone⟩
      simp only [exec, abortStream]
      split
      · rw [forall_mem_append, forall_mem_append]
        exact ⟨⟨List.forall_mem_cons.mpr ⟨fit_plain _ rfl, ending⟩, closeOn_fit _ _⟩, fit_all _ rfl⟩
      · rw [forall_mem_append]
        exact ⟨List.forall_mem_cons.mpr ⟨fit_plain _ rfl, ending⟩, fit_all _ rfl⟩
    case removeStream r reset =>
      have gone := absent_unlist listed (fit r rfl)
      cases reset <;> simp [exec, removeStream, Fit, named]
      exact gone
    case abortRemote r cause =>
      have gone := absent_unlist listed (fit r rfl)
      simp only [exec, abortRemote, forall_mem_append]
      exact ⟨answerAll_fit _ _ _, List.forall_mem_cons.mpr ⟨gone, fit_all _ rfl⟩⟩
    case onTransportClose cause =>
      simp only [exec, onTransportClose]
      split
      · exact fit_all _ rfl
      · rw [finishDrain_status]
        simp only [forall_mem_append, List.forall_mem_map]
        refine ⟨⟨fun _ _ => fit_plain _ rfl, ?_⟩, fit_all _ rfl⟩
        intro r member
        obtain ⟨id, -, here⟩ := List.mem_filterMap.mp member
        refine ⟨(listed.streams id r here).1, fun k found => ?_⟩
        rw [AList.lookup_empty] at found
        cases found
    case reserveInbound r payload fin next =>
      have old : r < s.reg.fresh := fit r rfl
      simp [exec, reserveInbound, Fit, named, old]
    case read r n =>
      simp only [exec, UmuxInbound.read]
      split
      · simp
      · simp only [forall_mem_append, forall_mem_cons, List.cons_append]
        refine ⟨fit_plain _ rfl, ⟨?_, grantOf_fit _ _ _⟩, ?_⟩ <;> split <;> exact fit_all _ rfl
    case discard r n =>
      simp only [exec, UmuxInbound.discard, forall_mem_append, forall_mem_cons,
        List.cons_append]
      refine ⟨fit_plain _ rfl, grantOf_fit _ _ _, ?_⟩
      split <;> exact fit_all _ rfl
    case shutdown =>
      simp only [exec, shutdown]
      split
      · exact fit_all _ rfl
      · split
        · simp
        · rw [forall_mem_append]
          exact ⟨List.forall_mem_cons.mpr ⟨fit_plain _ rfl, closeOn_fit _ _⟩, fit_all _ rfl⟩
    case waitDrain =>
      simp only [exec, waitDrain]
      (repeat' split) <;> exact fit_all _ rfl
    case heldReads =>
      simp only [exec, heldReads]
      (repeat' split) <;> exact fit_all _ rfl
    case exhaustedBudget =>
      simp only [exec, exhaustedBudget]
      (repeat' split) <;> exact fit_all _ rfl
    case afterFrame =>
      simp only [exec, afterFrame]
      split <;> exact fit_all _ rfl
    all_goals first | exact absurd rfl plain | exact fit_all _ rfl

theorem exec_closedLocal {a : Section}
    (reset : ∀ e, a ≠ .resetStream r e) (finish : a ≠ .tryFinish r) (old : r < s.reg.fresh) :
    ((exec cfg c a s).1.life r).closedLocal = (s.life r).closedLocal := by
  have moved := exec_moved cfg c a old
  generalize (exec cfg c a s).1.life r = l at moved ⊢
  cases moved with
  | beside phased _ _ => exact congrArg Phase.closedLocal phased
  | resetStream e => exact absurd rfl (reset e)
  | tryFinish e => exact absurd rfl finish
  | _ => rfl

theorem closed_exec (old : r < s.reg.fresh) (closed : (s.life r).closedLocal = true) :
    ((exec cfg c a s).1.life r).closedLocal = true := by
  by_cases reset : ∃ e, a = .resetStream r e
  · obtain ⟨e, rfl⟩ := reset
    simp only [exec, resetStream, closed, if_true]
  · by_cases finish : a = .tryFinish r
    · subst a
      simp only [exec, tryFinish, unfinished, closed, Bool.true_or, or_true, if_true]
    · rw [exec_closedLocal cfg c (fun e same => reset ⟨e, same⟩) finish old]
      exact closed

theorem tryFinish_absent (listed : Listed s.reg)
    (old : r < s.reg.fresh) (before : (s.life r).closedLocal = false)
    (closed : ((tryFinish cfg s r).1.life r).closedLocal = true) :
    Absent (tryFinish cfg s r).1.reg r := by
  unfold tryFinish at closed ⊢
  split at closed
  · rw [before] at closed
    cases closed
  · rename_i done
    rw [if_neg done]
    have gone := absent_unlist listed old
    exact gone

theorem removed_exec
    {others : Multiset Section} (ready : ready a s = true) (held : Removed s (a ::ₘ others)) :
    Removed (exec cfg c a s).1 (↑(exec cfg c a s).2 + others) := by
  have own := held.fit a (Multiset.mem_cons_self a others)
  refine ⟨listed_exec cfg c a held.listed, ?_, ?_⟩
  · exact forall_pushed (pushed_fit cfg c held.listed ready own) fun b other =>
      fit_exec cfg c a held.listed (held.fit b (Multiset.mem_cons_of_mem other))
  · intro r there closed
    by_cases old : r < s.reg.fresh
    · cases before : (s.life r).closedLocal with
      | true => exact absent_exec cfg c a held.listed (held.closed r old before)
      | false =>
        by_cases reset : ∃ e, a = .resetStream r e
        · obtain ⟨e, rfl⟩ := reset
          exact absent_exec cfg c _ held.listed own
        · by_cases finish : a = .tryFinish r
          · subst a
            exact tryFinish_absent cfg held.listed old before closed
          · rw [exec_closedLocal cfg c (fun e same => reset ⟨e, same⟩) finish old, before] at closed
            cases closed
    · obtain ⟨-, -, blank⟩ := exec_born cfg c (Nat.not_lt.mp old) there
      have running : ((exec cfg c a s).1.life r).closedLocal = false := blank.closedLocal
      rw [running] at closed
      cases closed

theorem removed_run {cfg : Endpoint} {now : Nat} {ok : Oracle → Section → Session → Prop}
    {p : Pool Session Section} (run : Run (program cfg) ok (newSession cfg now) p) :
    Removed p.state (owed p) := by
  refine owed_invariant Removed ⟨listed_new cfg now, ?_, ?_⟩ ?_ ?_ run
  · simp [owed, newSession, Fit, named]
  · exact fun r none => absurd none (Nat.not_lt_zero r)
  · intro s others a entry held
    refine ⟨held.listed, Multiset.forall_mem_cons.mpr ⟨?_, held.fit⟩, held.closed⟩
    cases a <;> first | (intro r wrong; cases wrong; done) | cases entry
  · intro s others a c ready _ held
    exact removed_exec cfg c a ready held

theorem open_of_lookup {owing : Multiset Section} (held : Removed s owing) {id : Nat}
    (here : s.reg.streams.lookup id = some r) : (s.life r).closedLocal = false := by
  cases closed : (s.life r).closedLocal with
  | false => rfl
  | true => exact absurd here ((held.closed r (held.listed.streams id r here).1 closed).2 id)

end UmuxRemoval
