import Uio.Bridge.Pair
import Uio.Monitor

/-!
A leg that leaves input behind goes on after the destination's next drain. OnRead counts
the drains before it forwards and looks again after its waiting mark; a report counts
before it claims the mark. So a report that came after the forward either finds the mark
or is found by the leg, and whoever claims the mark releases the pause or asks for a turn.
-/
namespace BridgeWakeups
open Interleaving Monitor BridgePair

variable {limit : Int} {c : Choice} {s s' : State} {x : Side} {a b : Section} {l l' : Leg}
  {act : Act} {acts : List Act} {more : List Section} {closed closed' : Bool}
  {others : Multiset Section}

def reading : Act → Bool
  | .closedCheck | .orphan | .loadDrains | .look _ | .forward _ | .refused _ | .forwardPrefix _
  | .inboundCheck _ | .mark _ | .recheck _ | .unmark | .hold | .holdLook | .holdResume => true
  | _ => false

def reads (x : Side) (a : Section) : Bool := decide (a.side = x) && reading a.act

def serial (x : Side) : Mutex State Section := ⟨fun s => (s.leg x).busy, reads x⟩

theorem reads_own (x : Side) (act : Act) : reads x ⟨x, act⟩ = reading act := by
  simp [reads]

theorem reads_other (off : a.side ≠ x) : reads x a = false := by
  simp [reads, off]

theorem turn_serial (turned : Turn closed l act closed' l' acts)
    (held : (reading act).toNat ≤ l.busy.toNat) : (reading act).toNat + l'.busy.toNat =
      l.busy.toNat + (acts.map (fun b => (reading b).toNat)).sum := by
  have most := Bool.toNat_le l.busy
  cases turned
  case onRead free _ => simp [free, reading]
  all_goals first
    | exact Nat.add_comm _ _
    | exact Nat.le_antisymm held most

theorem grip_own (x : Side) (act : Act) : (serial x).grip ⟨x, act⟩ = (reading act).toNat := by
  simp [Mutex.grip, serial, reads_own]

theorem grip_other (off : a.side ≠ x) : (serial x).grip a = 0 := by
  simp [Mutex.grip, serial, reads_other off]

theorem grips_own (x : Side) (acts : List Act) : ((acts.map (Section.mk x)).map (serial x).grip).sum =
    (acts.map (fun b => (reading b).toNat)).sum := by
  rw [List.map_map]
  congr 1
  exact List.map_congr_left (fun act _ => grip_own x act)

theorem grips_other (off : ∀ b ∈ more, b.side ≠ x) : (more.map (serial x).grip).sum = 0 := by
  apply List.sum_eq_zero
  intro n member
  obtain ⟨b, pushed, rfl⟩ := List.mem_map.mp member
  exact grip_other (off b pushed)

theorem serial_handed (limit : Int) (x : Side) : (serial x).Handed (program limit) := by
  intro c a s allowed held
  cases exec_seen limit c s x a allowed with
  | own acts same turned pushed =>
    obtain ⟨y, act⟩ := a
    subst same
    rw [grip_own] at held ⊢
    rw [show ((program limit).exec c ⟨y, act⟩ s).2 = _ from pushed, grips_own]
    exact turn_serial turned held
  | other off same _ pushed =>
    rw [grip_other off, show ((program limit).exec c a s).2 = (exec limit c a s).2 from rfl,
      grips_other pushed, Mutex.taken, Mutex.taken, Nat.zero_add, Nat.add_zero]
    exact congrArg (fun l => Bool.toNat l.busy) same

theorem serial_calls (limit : Int) (x : Side) (a : Section)
    (entered : (program limit).entry a = true) : (serial x).holds a = false := by
  obtain ⟨y, act⟩ := a
  cases act <;> first | exact Bool.and_false _ | cases entered

structure Ordered (l : Leg) : Prop where
  answered : l.answered ≤ l.claimed
  claimed : l.claimed ≤ l.reported
  reported : l.reported ≤ l.attempts

def Stands (l : Leg) : Act → Prop
  | .sourceOf seen | .drainAdd seen => seen ≤ l.attempts
  | .drainClaim seen => seen ≤ l.reported
  | .drainPaused seen | .drainResume seen | .drainWake seen => seen ≤ l.claimed
  | _ => True

theorem turn_ordered (turned : Turn closed l act closed' l' acts) (held : Ordered l)
    (mine : Stands l act) : Ordered l' := by
  obtain ⟨answered, claimed, reported⟩ := held
  cases turned
  case drainAdd seen => exact ⟨answered, le_max_of_le_left claimed, max_le reported mine⟩
  case claims seen => exact ⟨le_max_of_le_left answered, max_le claimed mine, reported⟩
  case nobody seen =>
    exact ⟨max_le (le_max_of_le_left answered) (le_max_right _ _), max_le claimed mine, reported⟩
  case drainResume seen | drainWake seen => exact ⟨max_le answered mine, claimed, reported⟩
  all_goals first
    | exact ⟨answered, claimed, reported⟩
    | exact ⟨answered, claimed, Nat.le_succ_of_le reported⟩

theorem turn_grows (turned : Turn closed l act closed' l' acts) : l.attempts ≤ l'.attempts ∧
    l.reported ≤ l'.reported ∧ l.claimed ≤ l'.claimed := by
  cases turned
  case drainAdd => exact ⟨le_rfl, le_max_left _ _, le_rfl⟩
  case claims | nobody => exact ⟨le_rfl, le_rfl, le_max_left _ _⟩
  all_goals first
    | exact ⟨le_rfl, le_rfl, le_rfl⟩
    | exact ⟨Nat.le_succ _, le_rfl, le_rfl⟩

theorem Stands.grows (stands : Stands l act) (attempts : l.attempts ≤ l'.attempts)
    (reported : l.reported ≤ l'.reported) (claimed : l.claimed ≤ l'.claimed) : Stands l' act := by
  cases act <;> first | trivial | exact Nat.le_trans stands (by assumption)

theorem turn_stands (turned : Turn closed l act closed' l' acts) (mine : Stands l act) :
    ∀ next ∈ acts, Stands l' next := by
  intro next member
  cases turned
  case low => rw [List.mem_singleton.mp member]; exact le_rfl
  case sourceOf | drainPaused | drainUnpaused => rw [List.mem_singleton.mp member]; exact mine
  case drainAdd | claims => rw [List.mem_singleton.mp member]; exact le_max_right _ _
  all_goals first
    | exact absurd member List.not_mem_nil
    | (rw [List.mem_singleton.mp member]; trivial)

def calm : Act → Bool
  | .holdLook | .holdResume => false
  | act => reading act

def loaded : Act → Option Nat
  | .look d | .forward d | .refused d | .forwardPrefix d | .inboundCheck d | .mark d
  | .recheck d => some d
  | _ => none

def tardy : Act → Option Nat
  | .refused d | .inboundCheck d | .mark d | .recheck d => some d
  | _ => none

def left : Act → Bool
  | .mark _ | .recheck _ => true
  | _ => false

def rechecking : Act → Bool
  | .recheck _ | .unmark => true
  | _ => false

@[mk_iff] structure Knows (l : Leg) (act : Act) : Prop where
  busy : l.busy = true
  calm : calm act = true → l.paused = false
  loaded : ∀ d, loaded act = some d → d ≤ l.drains
  tardy : ∀ d, tardy act = some d → l.inbound ≠ 0 → l.reported = l.attempts → d < l.drains
  left : left act = true → l.inbound ≠ 0
  waits : l.claimed = l.attempts → l.waiting = true → rechecking act = true

def Heard (l : Leg) : Prop := l.claimed = l.attempts → l.waiting = false

/-- Bound to leave a turn due, having claimed or cleared the mark. -/
def waking : Act → Bool
  | .drainPaused _ | .drainResume _ | .drainWake _ | .closePaused | .closeResume | .closeWake => true
  | _ => false

def marked : Act → Bool
  | .recheck _ | .unmark | .hold | .holdLook | .holdResume => true
  | _ => false

def Served (l : Leg) (wakers : Nat) : Prop := l.waiting = true ∨ l.due = true ∨ 0 < wakers

/-- A leg that left input behind is served from the moment OnRead has set its mark. -/
structure Attended (l : Leg) (reader wakers : Nat) : Prop where
  rests : l.busy = false → l.inbound ≠ 0 → l.failed = true ∨ Served l wakers
  marks : 0 < reader → Served l wakers

theorem loaded_of_tardy {d : Nat} (late : tardy act = some d) : loaded act = some d := by
  cases act <;> first | exact late | cases late

theorem turn_knows (turned : Turn closed l act closed' l' acts) (mine : reading act = true)
    (order : Ordered l) (known : Knows l act) :
    (l'.busy = false → Heard l') ∧ ∀ next ∈ acts, Knows l' next := by
  obtain ⟨answered, claimed, reported⟩ := order
  rw [knows_iff] at known
  cases turned
  all_goals first
    | (cases mine; done)
    | simp only [List.mem_singleton, List.not_mem_nil, forall_eq, knows_iff, Heard]
      simp only [calm, loaded, tardy, left, rechecking, reading, Leg.limited, Leg.returns, Leg.fails,
        Leg.wake, Leg.resume] at known ⊢
      grind -ring -linarith

theorem turn_apart {held : Act} (turned : Turn closed l act closed' l' acts)
    (outside : reading act = false) (known : Knows l held) : Knows l' held := by
  cases turned
  case receive n free | onRead free _ => exact absurd (known.busy.symm.trans free) (by decide)
  case drainAdd seen =>
    refine ⟨known.busy, known.calm, fun d has => Nat.le_succ_of_le (known.loaded d has), ?_,
      known.left, known.waits⟩
    intro d late _ _
    exact Nat.lt_succ_of_le (known.loaded d (loaded_of_tardy late))
  case claims seen | closeUnmark =>
    exact ⟨known.busy, known.calm, known.loaded, known.tardy, known.left, fun _ on => (by cases on)⟩
  case nobody seen free =>
    exact ⟨known.busy, known.calm, known.loaded, known.tardy, known.left,
      fun _ on => absurd (free.symm.trans on) (by decide)⟩
  case drainResume | closeResume =>
    exact ⟨known.busy, fun _ => rfl, known.loaded, known.tardy, known.left, known.waits⟩
  all_goals first
    | (cases outside; done)
    | exact ⟨known.busy, known.calm, known.loaded, known.tardy, known.left, known.waits⟩

theorem turn_heard (turned : Turn closed l act closed' l' acts) (outside : reading act = false)
    (heard : Heard l) : Heard l' := by
  cases turned
  case claims | closeUnmark => exact fun _ => rfl
  case nobody free => exact fun _ => free
  all_goals first
    | (cases outside; done)
    | exact heard

theorem turn_enters {next : Act} (turned : Turn closed l act closed' l' acts)
    (outside : reading act = false) (member : next ∈ acts) (mine : reading next = true)
    (heard : Heard l) : Knows l' next := by
  cases turned
  case onRead free unpaused =>
    rw [List.mem_singleton.mp member]
    exact ⟨rfl, fun _ => unpaused, fun d has => (by cases has), fun d has => (by cases has),
      nofun, fun after on => absurd ((heard after).symm.trans on) (by decide)⟩
  all_goals first
    | (cases outside; done)
    | exact absurd member List.not_mem_nil
    | (rw [List.mem_singleton.mp member] at mine; cases mine)

/-- Bound to release the pause, or to look at the mark before OnRead returns. -/
def releasing : Act → Bool
  | .holdLook | .holdResume | .drainPaused _ | .drainResume _ | .closePaused | .closeResume => true
  | _ => false

def tally (kind : Act → Bool) (x : Side) (a : Section) : Nat :=
  (decide (a.side = x) && kind a.act).toNat

variable {kind : Act → Bool}

theorem tally_own (side : a.side = x) : tally kind x a = (kind a.act).toNat := by
  simp [tally, side]

theorem tally_other (off : a.side ≠ x) : tally kind x a = 0 := by
  simp [tally, off]

theorem tally_owns (x : Side) (acts : List Act) :
    ((acts.map (Section.mk x)).map (tally kind x)).sum =
      (acts.map (fun b => (kind b).toNat)).sum := by
  rw [List.map_map]
  congr 1
  exact List.map_congr_left (fun act _ => tally_own rfl)

theorem tally_others (off : ∀ b ∈ more, b.side ≠ x) : (more.map (tally kind x)).sum = 0 := by
  apply List.sum_eq_zero
  intro n member
  obtain ⟨b, pushed, rfl⟩ := List.mem_map.mp member
  exact tally_other (off b pushed)

theorem weigh_tally_eq_zero (none : ∀ a ∈ others, a.side = x → kind a.act = false) :
    weigh (tally kind x) others = 0 := by
  rw [weigh_eq_zero_iff]
  intro a member
  by_cases side : a.side = x
  · rw [tally_own side, none a member side, Bool.toNat_false]
  · exact tally_other side

def Watched (l : Leg) (releasers : Nat) : Prop :=
  l.paused = true → l.waiting = true ∨ 0 < releasers

theorem turn_watched {rest : Nat} (turned : Turn closed l act closed' l' acts)
    (known : reading act = true → Knows l act)
    (watched : Watched l ((releasing act).toNat + rest)) :
    Watched l' ((acts.map (fun b => (releasing b).toNat)).sum + rest) := by
  cases turned
  case unmark =>
    intro paused
    exact absurd (((known rfl).calm rfl).symm.trans paused) (by decide)
  case held waiting => exact fun _ => .inl waiting
  case drainUnpaused free | closeUnpaused free =>
    exact fun paused => absurd (free.symm.trans paused) (by decide)
  case mark => exact fun _ => .inl rfl
  all_goals
    simp only [Watched, releasing, sum_map_cons, sum_map_nil, Leg.returns, Leg.limited, Leg.claim,
      Leg.answer, Leg.fails, Leg.wake, Leg.resume, Bool.toNat_true, Bool.toNat_false] at watched ⊢
    grind -ring -linarith

theorem turn_attended {reader wakers : Nat} (turned : Turn closed l act closed' l' acts)
    (running : reading act = true → l.busy = true)
    (alone : reading act = true ∨ l.busy = false → reader = 0)
    (held : Attended l ((marked act).toNat + reader) ((waking act).toNat + wakers)) :
    Attended l' ((acts.map (fun b => (marked b).toNat)).sum + reader)
      ((acts.map (fun b => (waking b).toNat)).sum + wakers) := by
  obtain ⟨rests, marks⟩ := held
  cases turned
  all_goals
    simp only [Served, marked, waking, reading, Bool.toNat_true, Bool.toNat_false]
      at rests marks running alone
    constructor
    all_goals
      simp only [Served, marked, waking, sum_map_cons, sum_map_nil, Leg.returns, Leg.limited,
        Leg.claim, Leg.answer, Leg.fails, Leg.wake, Leg.resume, Bool.toNat_true, Bool.toNat_false]
      grind -ring -linarith

section Runs

variable {ok : Choice → Section → State → Prop} {q : Pool State Section}

theorem ordered_run (run : Run (program limit) ok start q) : Ordered (q.state.leg x) ∧
    ∀ a ∈ owed q, a.side = x → Stands (q.state.leg x) a.act := by
  refine owed_carries (fun s => Ordered (s.leg x))
    (fun s a => a.side = x → Stands (s.leg x) a.act)
    ⟨Nat.le_refl 0, Nat.le_refl 0, Nat.le_refl 0⟩ (by rintro _ ⟨⟩) ?_ ?_ run
  · intro s a _ entered _
    obtain ⟨y, act⟩ := a
    cases act <;> trivial
  · intro s a c allowed _ held mine
    cases exec_seen limit c s x a allowed with
    | own acts same turned pushed =>
      obtain ⟨attempts, reported, claimed⟩ := turn_grows turned
      refine ⟨turn_ordered turned held (mine same),
        fun b other side => (other side).grows attempts reported claimed, ?_⟩
      intro b member _
      rw [show ((program limit).exec c a s).2 = _ from pushed] at member
      obtain ⟨next, pushes, rfl⟩ := List.mem_map.mp member
      exact turn_stands turned (mine same) next pushes
    | other off same _ pushed =>
      rw [show ((program limit).exec c a s).1.leg x = s.leg x from same]
      exact ⟨held, fun b other => other, fun b member side => absurd side (pushed b member)⟩

def onReads (x : Side) : Guarded State Section :=
  ⟨fun s => Heard (s.leg x), fun s a => Knows (s.leg x) a.act⟩

theorem own_reads (holder : reads x a = true) : a.side = x ∧ reading a.act = true := by
  simpa [reads] using holder

/-- The rule for what one leg's OnRead guards: it answers for its own turns and for what they
    push, and the leg's other turns leave it alone. -/
theorem leg_guarded {free : Leg → Prop} {knows : Leg → Act → Prop} (J : State → Prop)
    (facts : ∀ r, Run (program limit) ok start r → J r.state) (initial : free {})
    (held : ∀ {s act closed' l' acts}, Turn s.closed (s.leg x) act closed' l' acts → J s →
      reading act = true → (s.leg x).busy = true → knows (s.leg x) act →
      (l'.busy = false → free l') ∧ ∀ next ∈ acts, knows l' next)
    (other : ∀ {closed l act closed' l' acts}, Turn closed l act closed' l' acts →
      reading act = false → free l → free l' ∧ ∀ next ∈ acts, reading next = true → knows l' next)
    (apart : ∀ {closed l act closed' l' acts}, Turn closed l act closed' l' acts →
      reading act = false → ∀ b, knows l b → knows l' b) (run : Run (program limit) ok start q) :
    Guarded.Kept ⟨fun s => free (s.leg x), fun s a => knows (s.leg x) a.act⟩ (serial x) q.state
      (owed q) := by
  refine guarded_given (fun s _ => J s) facts (serial_handed limit x) (serial_calls limit x) rfl
    ⟨fun _ => initial, fun b member => absurd member (Multiset.notMem_zero b)⟩ ?_ ?_ ?_ ?_ run
  · intro s others a c allowed _ fact holder locked known
    obtain ⟨side, mine⟩ := own_reads holder
    cases exec_seen limit c s x a allowed with
    | own acts same turned pushed =>
      obtain ⟨frees, knows⟩ := held turned fact mine locked known
      refine ⟨frees, ?_⟩
      intro b member _
      rw [show ((program limit).exec c a s).2 = _ from pushed] at member
      obtain ⟨next, pushes, rfl⟩ := List.mem_map.mp (Multiset.mem_coe.mp member)
      exact knows next pushes
    | other off => exact absurd side off
  · intro s others a c allowed _ _ outside frees
    cases exec_seen limit c s x a allowed with
    | own acts same turned pushed =>
      exact (other turned (by simpa [serial, reads, same] using outside) frees).1
    | other off same _ _ => exact (congrArg free same).mpr frees
  · intro s others a b c allowed _ _ outside member holder frees
    obtain ⟨side, mine⟩ := own_reads holder
    cases exec_seen limit c s x a allowed with
    | own acts same turned pushed =>
      rw [show ((program limit).exec c a s).2 = _ from pushed] at member
      obtain ⟨next, pushes, rfl⟩ := List.mem_map.mp member
      exact (other turned (by simpa [serial, reads, same] using outside) frees).2 next pushes mine
    | other off _ _ pushed => exact absurd side (pushed b member)
  · intro s others a b c allowed _ _ outside holder known
    cases exec_seen limit c s x a allowed with
    | own acts same turned pushed =>
      exact apart turned (by simpa [serial, reads, same] using outside) b.act known
    | other off same _ _ => exact (congrArg (knows · b.act) same).mpr known

theorem onReads_kept (run : Run (program limit) ok start q) :
    (onReads x).Kept (serial x) q.state (owed q) :=
  leg_guarded (fun s => Ordered (s.leg x)) (fun _ before => (ordered_run before).1) (fun _ => rfl)
    (fun turned order mine _ known => turn_knows turned mine order known)
    (fun turned idle heard => ⟨turn_heard turned idle heard,
      fun _ pushes mine => turn_enters turned idle pushes mine heard⟩)
    (fun turned idle _ known => turn_apart turned idle known) run

theorem watched_run (run : Run (program limit) ok start q) :
    Watched (q.state.leg x) (weigh (tally releasing x) (owed q)) := by
  refine owed_invariant_given (fun s owing => (onReads x).Kept (serial x) s owing)
    (fun s owing => Watched (s.leg x) (weigh (tally releasing x) owing))
    (fun r before => onReads_kept before) nofun ?_ ?_ run
  · intro s others a entered held paused
    rw [weigh_cons]
    rcases held paused with waiting | watched
    · exact .inl waiting
    · exact .inr (Nat.add_pos_right _ watched)
  · intro s others a c allowed _ kept held
    rw [weigh_cons] at held
    cases exec_seen limit c s x a allowed with
    | own acts same turned pushed =>
      rw [show ((program limit).exec c a s).2 = _ from pushed, weigh_add, weigh_coe, tally_owns]
      rw [tally_own same] at held
      refine turn_watched turned ?_ held
      intro mine
      exact kept.2 a (Multiset.mem_cons_self a others) (by simp [serial, reads, same, mine])
    | other off same _ pushed =>
      rw [weigh_add, weigh_coe, show ((program limit).exec c a s).2 = (exec limit c a s).2 from rfl,
        tally_others pushed, show ((program limit).exec c a s).1.leg x = s.leg x from same,
        Nat.zero_add]
      rwa [tally_other off, Nat.zero_add] at held

theorem exclusive_run (run : Run (program limit) ok start q) :
    (serial x).taken q.state = weigh (serial x).grip (owed q) :=
  exclusive (serial_handed limit x) (serial_calls limit x) rfl run

theorem attended_run (run : Run (program limit) ok start q) :
    Attended (q.state.leg x) (weigh (tally marked x) (owed q)) (weigh (tally waking x) (owed q)) := by
  refine owed_invariant_given (fun s owing => (serial x).taken s = weigh (serial x).grip owing)
    (fun s owing => Attended (s.leg x) (weigh (tally marked x) owing) (weigh (tally waking x) owing))
    (fun r before => exclusive_run before) ⟨fun _ some => absurd rfl some, nofun⟩ ?_ ?_ run
  · intro s others a entered held
    have plain : tally marked x a = 0 ∧ tally waking x a = 0 := by
      obtain ⟨y, act⟩ := a
      cases act <;> first | (cases entered; done) | simp [tally, marked, waking]
    rw [weigh_cons, weigh_cons, plain.1, plain.2, Nat.zero_add, Nat.zero_add]
    exact held
  · intro s others a c allowed _ one held
    rw [weigh_cons, weigh_cons] at held
    cases exec_seen limit c s x a allowed with
    | own acts same turned pushed =>
      rw [show ((program limit).exec c a s).2 = _ from pushed, weigh_add, weigh_coe, tally_owns,
        weigh_add, weigh_coe, tally_owns]
      rw [tally_own same, tally_own same] at held
      have holder (mine : reading a.act = true) : (serial x).holds a = true := by
        simp [serial, reads, same, mine]
      refine turn_attended turned (fun mine => locked_of_held one (holder mine)) ?_ held
      intro free
      apply weigh_tally_eq_zero
      intro b member side
      have idle : (serial x).holds b = false := by
        rcases free with mine | unlocked
        · exact alone one (holder mine) b member
        · exact unheld one unlocked b (Multiset.mem_cons_of_mem member)
      apply Bool.of_not_eq_true
      intro on
      have mine : reading b.act = true := by
        cases kind : b.act <;> rw [kind] at on <;> first | rfl | cases on
      simp [serial, reads, side, mine] at idle
    | other off same _ pushed =>
      rw [weigh_add, weigh_coe, weigh_add, weigh_coe,
        show ((program limit).exec c a s).2 = (exec limit c a s).2 from rfl, tally_others pushed,
        tally_others pushed, show ((program limit).exec c a s).1.leg x = s.leg x from same,
        Nat.zero_add, Nat.zero_add]
      rwa [tally_other off, tally_other off, Nat.zero_add, Nat.zero_add] at held

/-- Once a report that came after a leg's last limited forward has finished, and the leg's
    OnRead, and whoever has claimed the leg's mark, the leg neither waits nor is paused, and a
    turn is due for the input it left, unless its destination failed it. -/
theorem no_drain_wakeup_lost (limit : Int) (x : Side) (q : Pool State Section)
    (reached : Reachable (program limit) start q)
    (answered : (q.state.leg x).answered = (q.state.leg x).attempts)
    (returned : (q.state.leg x).busy = false)
    (finished : ∀ a ∈ owed q, a.side = x → releasing a.act = false ∧ waking a.act = false) :
    (q.state.leg x).waiting = false ∧ (q.state.leg x).paused = false ∧
      ((q.state.leg x).inbound ≠ 0 → (q.state.leg x).due = true ∨ (q.state.leg x).failed = true) := by
  have order := (ordered_run (x := x) reached).1
  have releasers : weigh (tally releasing x) (owed q) = 0 :=
    weigh_tally_eq_zero (fun a member side => (finished a member side).1)
  have wakers : weigh (tally waking x) (owed q) = 0 :=
    weigh_tally_eq_zero (fun a member side => (finished a member side).2)
  have unmarked : (q.state.leg x).waiting = false := by
    apply (onReads_kept reached).1 returned
    have := order.answered
    have := order.claimed
    have := order.reported
    omega
  refine ⟨unmarked, ?_, ?_⟩
  · apply Bool.of_not_eq_true
    intro paused
    rcases watched_run reached paused with waiting | watched
    · exact absurd (unmarked.symm.trans waiting) (by decide)
    · omega
  · intro left
    rcases (attended_run reached).rests returned left with failed | waiting | due | waker
    · exact .inr failed
    · exact absurd (unmarked.symm.trans waiting) (by decide)
    · exact .inl due
    · omega

end Runs

/-- A leg fills up behind a full queue and is paused; the queue drains. -/
def pausedLeg : List (Move Section Choice) :=
  List.flatten [[.start ⟨.a, .enqueue⟩], runs 0 1 { bytes := 8 }, [.start ⟨.a, .receive⟩],
    runs 1 1 { bytes := 5 }, [.start ⟨.a, .onRead⟩], runs 2 9 {}]

theorem no_drain_wakeup_lost_paused : ∃ q, (Reachable (program 4) start q ∧
    (q.state.leg .a).attempts = 1 ∧ (q.state.leg .a).answered = 1 ∧ (q.state.leg .a).inbound = 5) ∧
    (q.state.leg .a).waiting = false ∧ (q.state.leg .a).paused = false ∧
    (q.state.leg .a).due = true := by
  obtain ⟨q, reached, checked⟩ := replay_reaches (P := program 4) (p := start)
    (List.flatten [pausedLeg, [.start ⟨.a, .report⟩], runs 3 1 { bytes := 8 }, runs 3 6 {}])
    (fun q => decide ((q.state.leg .a).attempts = 1 ∧ (q.state.leg .a).answered = 1 ∧
      (q.state.leg .a).inbound = 5 ∧ (q.state.leg .a).failed = false ∧
      (q.state.leg .a).busy = false ∧ q.threads.all List.isEmpty = true)) (by decide +kernel)
  obtain ⟨attempts, answered, input, unfailed, returned, idle⟩ := of_decide_eq_true checked
  have finished : ∀ a ∈ owed q, a.side = .a → releasing a.act = false ∧ waking a.act = false := by
    intro a member
    rw [owed_eq_zero idle] at member
    exact absurd member (Multiset.notMem_zero a)
  obtain ⟨unmarked, unpaused, due⟩ := no_drain_wakeup_lost 4 .a q reached
    (answered.trans attempts.symm) returned finished
  refine ⟨q, ⟨reached, attempts, answered, input⟩, unmarked, unpaused, ?_⟩
  rcases due (by omega) with due | failed
  · exact due
  · exact absurd (unfailed.symm.trans failed) (by decide)

end BridgeWakeups
