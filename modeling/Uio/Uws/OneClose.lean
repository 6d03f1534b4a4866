import Uio.Uws.WriteSteps

/-!
A connection's Close frame is one token: with a call that found none queued, stored as
deferred, out for a retry, in the batch, on its way in a hand-over, or handed to the
transport. The flags say whether the token exists; only a call under the write lock may
make it, and only an abort forgets a stored one.
-/
namespace UwsOneClose
open Interleaving Monitor UwsWrites UwsWriteSteps

variable {tracked : Bool} {s s' : State} {a : Section} {more : List Section}
  {others owing : Multiset Section}

def holds : Section → Bool
  | .enter _ | .quickFlags _ _ | .quickClosing _ _ | .sendChecks _ | .queue _ | .closeQueued _
  | .route _ | .append _ | .flushTake _ _ | .flushCount _ _ _ | .flushWrite _ _ _
  | .flushRollback _ _ _ _ | .flushed _ _ _ | .track _ | .write _ _ | .rollback _ _ _
  | .writeTracked _ | .setReceipt _ _ | .setDone _ | .markSent _ | .result _ _ | .deferClose _
  | .closingMark _ _ _ | .rawFlush _ _ | .unlockCheck _ _ _ | .unlock _ _ _ | .unlockFast => true
  | _ => false

def mutex : Mutex State Section := ⟨State.mu, holds⟩

theorem grip_eq (a : Section) : mutex.grip a = (holds a).toNat := rfl

theorem taken_eq (s : State) : mutex.taken s = s.mu.toNat := rfl

theorem grip_pure (step : Pure tracked s a more) : mutex.grip a = (more.map mutex.grip).sum := by
  cases step <;> rfl

theorem grip_step (step : Step tracked s a s' more) (held : mutex.grip a ≤ mutex.taken s) :
    mutex.grip a + mutex.taken s' = mutex.taken s + (more.map mutex.grip).sum := by
  have most := Bool.toNat_le s.mu
  rw [grip_eq, taken_eq] at held
  cases step
  case stays step =>
    rw [grip_pure step]
    exact Nat.add_comm _ _
  case lock job free =>
    rw [taken_eq, taken_eq, free]
    rfl
  case unlock | unlockFast => exact Nat.le_antisymm held most
  all_goals exact Nat.add_comm _ _

theorem handed (tracked : Bool) : mutex.Handed (program tracked) := by
  intro c a s ready held
  exact grip_step (exec_step tracked c s a ready) held

theorem calls (tracked : Bool) (a : Section) (entry : (program tracked).entry a = true) :
    mutex.holds a = false := by
  cases a <;> first | rfl | cases entry

theorem mutex_exclusive {ok : Choice → Section → State → Prop} {h : Nat} {q : Pool State Section}
    (run : Run (program tracked) ok (start tracked h) q) :
    mutex.taken q.state = weigh mutex.grip (owed q) :=
  exclusive (handed tracked) (calls tracked) rfl run

def closesIn (frames : List Frame) : Nat := frames.countP (fun f => f.kind == .close)

theorem closesIn_append (first second : List Frame) :
    closesIn (first ++ second) = closesIn first + closesIn second := List.countP_append

theorem closesIn_close (size seq : Nat) : closesIn [⟨.close, size, seq⟩] = 1 := rfl

theorem closesIn_other {job : Job} (other : job.isClose = false) (size seq : Nat) :
    closesIn [⟨job.kind, size, seq⟩] = 0 := by
  cases job
  case control pong => cases pong <;> rfl
  all_goals first | rfl | cases other

def carried : Section → Nat
  | .flushCount _ _ frames | .flushWrite _ _ frames => closesIn frames
  | _ => 0

def Next.serves : Next → Bool
  | .append | .track => true
  | _ => false

/-- A call that found no Close queued and has not handed its own over. -/
def acting : Section → Nat
  | .writeTracked job | .route job | .append job | .track job | .write job _
  | .rollback job _ _ => job.isClose.toNat
  | .flushTake next job | .flushCount next job _ | .flushWrite next job _
  | .flushRollback next job _ _ | .flushed next job _ => (Next.serves next && job.isClose).toNat
  | .result job r => (job.isClose && r == .backpressure).toNat
  | .deferClose _ => 1
  | _ => 0

def marking : Section → Nat
  | .setReceipt _ _ | .setDone _ | .markSent _ => 1
  | _ => 0

def fresh : Section → Nat
  | .retry | .retryTrack | .retryWrite _ | .retryTracked | .retryRollback _ _ | .restore => 1
  | _ => 0

def settled : Section → Nat
  | .retryReceipt _ | .retryDone | .retryMark => 1
  | _ => 0

@[mk_iff] structure Token (s : State) (owing : Multiset Section) : Prop where
  one : closesIn s.handed + closesIn s.batch + weigh carried owing + s.payload.toNat +
    weigh acting owing + weigh fresh owing ≤ 1
  none_queued : s.closeFrameSent = false → s.closeFrameDeferred = false →
    closesIn s.handed + closesIn s.batch + weigh carried owing = weigh marking owing ∧
      s.payload = false ∧ s.taken = false
  deferred : s.closeFrameDeferred = true → s.closeFrameSent = false ∧ weigh acting owing = 0 ∧
    weigh marking owing = 0 ∧ closesIn s.batch + weigh carried owing = 0 ∧
      closesIn s.handed = weigh settled owing
  acts : 0 < weigh acting owing → s.closeFrameSent = false ∧ s.closeFrameDeferred = false
  stored : s.payload = true → s.closeFrameDeferred = true
  out : s.taken = true → s.closeFrameDeferred = true
  retries : s.taken.toNat = weigh fresh owing + weigh settled owing

theorem weigh_sum (w v : Section → Nat) (owing : Multiset Section) :
    weigh (fun a => w a + v a) owing = weigh w owing + weigh v owing := by
  simp [weigh, Multiset.sum_map_add]

theorem calling_le (a : Section) : acting a + marking a ≤ mutex.grip a := by
  rw [grip_eq]
  cases a <;> simp only [acting, marking, holds, Bool.toNat_true] <;>
    first | exact Bool.toNat_le _ | omega

theorem calling_few (others : Multiset Section) :
    weigh acting others + weigh marking others ≤ weigh mutex.grip others := by
  rw [← weigh_sum]
  exact weigh_le calling_le others

theorem token_less (acts : (more.map acting).sum ≤ acting a)
    (carries : (more.map carried).sum = carried a) (marks : (more.map marking).sum = marking a)
    (retries : (more.map fresh).sum = fresh a) (settles : (more.map settled).sum = settled a)
    (held : Token s (a ::ₘ others)) : Token s (↑more + others) := by
  rw [token_iff] at held ⊢
  simp only [weigh_cons, weigh_add, weigh_coe, carries, marks, retries, settles] at held ⊢
  obtain ⟨one, none_queued, deferred, acting_now, stored, out, taken⟩ := held
  refine ⟨by omega, none_queued, ?_, fun positive => acting_now (by omega), stored, out, taken⟩
  intro set
  obtain ⟨sent, idle, rest⟩ := deferred set
  exact ⟨sent, by omega, rest⟩

theorem token_begin {b : Section} (sent : s.closeFrameSent = false)
    (deferred : s.closeFrameDeferred = false)
    (one : mutex.taken s = weigh mutex.grip (a ::ₘ others)) (holder : mutex.grip a = 1)
    (acts : acting b ≤ 1) (carries : carried b = carried a) (quiet : marking a = 0)
    (marks : marking b = 0) (retries : fresh b = fresh a) (settles : settled b = settled a)
    (held : Token s (a ::ₘ others)) : Token s (↑[b] + others) := by
  have few := calling_few others
  have mine := calling_le a
  have most := taken_le mutex s
  rw [weigh_cons, holder] at one
  rw [token_iff] at held ⊢
  simp only [weigh_cons, weigh_add, weigh_coe, sum_map_cons, sum_map_nil, Nat.add_zero, carries, quiet, marks, retries, settles] at held ⊢
  obtain ⟨sum, none_queued, _, _, stored, out, taken⟩ := held
  obtain ⟨closes, payload, free⟩ := none_queued sent deferred
  rw [free, Bool.toNat_false] at taken
  rw [payload, Bool.toNat_false] at sum ⊢
  refine ⟨?_, fun _ _ => ⟨closes, rfl, free⟩, ?_, fun _ => ⟨sent, deferred⟩, nofun,
    out, by rw [free]; exact taken⟩
  · omega
  · intro set
    rw [deferred] at set
    cases set

theorem token_dropped {next : Next} {job : Job} {frames : List Frame} {n : Nat} {closed : Bool}
    (one : mutex.taken s = weigh mutex.grip (.flushWrite next job frames ::ₘ others))
    (held : Token s (.flushWrite next job frames ::ₘ others)) :
    Token s (.flushRollback next job n closed ::ₘ others) := by
  have few := calling_few others
  have most := taken_le mutex s
  rw [weigh_cons, grip_eq, holds, Bool.toNat_true] at one
  rw [token_iff] at held ⊢
  simp only [weigh_cons, acting, carried, marking, fresh, settled, Nat.zero_add] at held ⊢
  obtain ⟨sum, none_queued, deferred, acts, stored, out, taken⟩ := held
  refine ⟨by omega, ?_, ?_, acts, stored, out, taken⟩
  · intro sent free
    obtain ⟨closes, rest⟩ := none_queued sent free
    exact ⟨by omega, rest⟩
  · intro set
    obtain ⟨sent, idle, unmarked, empty, closes⟩ := deferred set
    exact ⟨sent, idle, unmarked, by omega, closes⟩

theorem toNat_and_le (b c : Bool) : (b && c).toNat ≤ b.toNat := by
  cases b <;> cases c <;> decide

theorem token_pure (step : Pure tracked s a more)
    (one : mutex.taken s = weigh mutex.grip (a ::ₘ others)) (held : Token s (a ::ₘ others)) :
    Token s (↑more + others) := by
  cases step
  case closeTracked job sent deferred _ | closeRoutes job sent deferred =>
    exact token_begin sent deferred one rfl (Bool.toNat_le _) rfl rfl rfl rfl rfl held
  case flushOverflow next job frames => exact token_dropped one held
  all_goals refine token_less ?_ rfl rfl rfl rfl held
  case flushedFails next job r _ serves =>
    rcases serves with rfl | rfl
    · exact toNat_and_le _ _
    · exact toNat_and_le _ _
  case routeFails job | trackedFails job | trackedOverflow job => exact toNat_and_le _ _
  all_goals first | exact Nat.le_refl _ | exact Nat.zero_le _ | skip
  all_goals simp_all [acting]

/-- No abort makes its claim while a retry has the deferred Close out. -/
def Undisturbed (_ : Choice) (a : Section) (s : State) : Prop :=
  a = .claimAbort → s.phase = .claimed ∨ s.taken = false

theorem token_step (step : Step tracked s a s' more)
    (calm : a = .claimAbort → s.phase = .claimed ∨ s.taken = false)
    (one : mutex.taken s = weigh mutex.grip (a ::ₘ others)) (held : Token s (a ::ₘ others)) :
    Token s' (↑more + others) := by
  have few := calling_few others
  have most := taken_le mutex s
  have out := Bool.toNat_le s.taken
  cases step
  case stays step => exact token_pure step one held
  all_goals
    rw [token_iff] at held ⊢
    simp only [weigh_cons, weigh_add, weigh_coe] at one held ⊢
  all_goals try exact held
  all_goals
    simp only [acting, marking, fresh, settled, carried, grip_eq, holds, breaks, hand,
      closesIn_append, closesIn_close, sum_map_cons, sum_map_nil, Nat.add_zero, Nat.zero_add,
      Bool.toNat_true, Bool.toNat_false] at one held ⊢
  all_goals try exact held
  case append job size other | write job size other | writeTracked job size other =>
    rw [closesIn_other other]
    simpa [other] using held
  case flushTake next job _ =>
    have empty : closesIn [] = 0 := rfl
    rw [empty]
    grind -ring -linarith
  case rollback job n r =>
    have fewer := toNat_and_le job.isClose (r == .backpressure)
    grind -ring -linarith
  case writeTrackedFails job n closed =>
    have fewer := toNat_and_le job.isClose (failure closed == .backpressure)
    grind -ring -linarith
  case restore =>
    have stored := Bool.toNat_le (s.payload || s.closeFrameDeferred)
    grind -ring -linarith
  all_goals grind -ring -linarith

section Runs
variable {h : Nat} {q : Pool State Section}

theorem token_start (tracked : Bool) (h : Nat) :
    Token (start tracked h).state (owed (start tracked h)) :=
  ⟨Nat.zero_le 1, fun _ _ => ⟨rfl, rfl, rfl⟩, nofun,
    nofun, nofun, nofun, rfl⟩

theorem entry_weightless (entry : (program tracked).entry a = true) : acting a = 0 ∧
    carried a = 0 ∧ marking a = 0 ∧ fresh a = 0 ∧ settled a = 0 := by
  cases a <;> first | exact ⟨rfl, rfl, rfl, rfl, rfl⟩ | cases entry

theorem token (run : Run (program tracked) Undisturbed (start tracked h) q) :
    Token q.state (owed q) := by
  refine owed_invariant_given (fun s owing => mutex.taken s = weigh mutex.grip owing) Token
    (fun r before => mutex_exclusive before) (token_start tracked h) ?_ ?_ run
  · intro s others a entry held
    obtain ⟨acts, carries, marks, retries, settles⟩ := entry_weightless entry
    rw [token_iff] at held ⊢
    simp only [weigh_cons, acts, carries, marks, retries, settles, Nat.zero_add]
    exact held
  · intro s others a c ready calm one held
    exact token_step (exec_step tracked c s a ready) calm one held

/-- In a run that no abort disturbs, the transport accepts at most one Close frame. -/
theorem at_most_one_close_accepted (tracked : Bool) (h : Nat) (q : Pool State Section)
    (run : Run (program tracked) Undisturbed (start tracked h) q) :
    closesIn q.state.handed ≤ 1 := by
  have held := (token run).one
  omega

end Runs

def undisturbed (_ : Choice) (a : Section) (s : State) : Bool :=
  match a with
  | .claimAbort => s.phase == .claimed || !s.taken
  | _ => true

theorem undisturbed_sound (c : Choice) (a : Section) (s : State)
    (passed : undisturbed c a s = true) : Undisturbed c a s := by
  rintro rfl
  simpa [undisturbed] using passed

/-- The application's Close finds no room, nor does its own retry; the transport's next
    report has it out again. -/
def deferredOut : List (Move Section Choice) :=
  List.flatten [[.start (.call (.close .app))], runs 0 8 {}, runs 0 1 { size := 4 },
    runs 0 1 { answer := .overflow }, runs 0 13 {}, runs 0 1 { size := 4 },
    runs 0 1 { answer := .overflow }, runs 0 3 {}, [.start .onOutbound], runs 1 1 { size := 8 },
    runs 1 3 {}, runs 1 1 { size := 4 }]

theorem at_most_one_close_accepted_deferred : ∃ q,
    (Run (program false) Undisturbed (start false 8) q ∧ closesIn q.state.handed = 1 ∧
      q.state.closeFrameSent = true) ∧ closesIn q.state.handed ≤ 1 := by
  obtain ⟨q, run, checked⟩ := replay_meets undisturbed_sound
    (fun q => decide (closesIn q.state.handed = 1 ∧ q.state.closeFrameSent = true))
    (List.flatten [deferredOut, runs 1 2 {}]) (P := program false) (p := start false 8)
    (by decide +kernel) (by decide +kernel)
  exact ⟨q, ⟨run, of_decide_eq_true checked⟩, at_most_one_close_accepted false 8 q run⟩

/-- The close timer's abort claims the transport while the retry has the Close out; before
    the abort reaches the transport, the peer's Close is answered and the retry goes through. -/
theorem two_closes_accepted : ∃ q, Reachable (program false) (start false 8) q ∧
    q.state.handed = [⟨.close, 4, 0⟩, ⟨.close, 4, 1⟩] := by
  obtain ⟨q, reached, checked⟩ := replay_reaches (P := program false) (p := start false 8)
    (List.flatten [deferredOut, [.start .closeTimer], runs 2 2 {},
      [.start (.call (.close .peer))], runs 3 8 {}, runs 3 1 { size := 4 }, runs 3 1 {},
      runs 1 1 {}])
    (fun q => decide (q.state.handed = [⟨.close, 4, 0⟩, ⟨.close, 4, 1⟩])) (by decide +kernel)
  exact ⟨q, reached, of_decide_eq_true checked⟩

end UwsOneClose
