import Uio.Uws.OneClose

/-!
The order in which frames reach the transport. Whoever holds the write lock may hand a
frame over past the batch only when the batch is empty; a Close is accepted only while
none is out, and once it is, the connection is closing before the lock is free again. A
deferred Close leaves nothing behind in the batch, so its retries need no lock.
-/
namespace UwsWriteOrder
open Interleaving Monitor UwsWrites UwsWriteSteps UwsOneClose

variable {tracked : Bool} {s s' : State} {a b : Section} {more : List Section}
  {others owing : Multiset Section}

def Lined (frames : List Frame) : Prop :=
  frames.Pairwise (fun f g => f.seq < g.seq ∧ f.kind ≠ .close)

structure Line (s : State) (frames : List Frame) : Prop where
  lined : Lined (s.handed ++ frames ++ s.batch)
  below : ∀ f ∈ s.handed ++ frames ++ s.batch, f.seq < s.accepted

def load : Section → List Frame
  | .flushCount _ _ frames | .flushWrite _ _ frames => frames
  | _ => []

def bare : Section → Bool
  | .flushCount _ _ _ | .flushWrite _ _ _ | .flushRollback _ _ _ _ | .flushed _ _ _ | .track _
  | .write _ _ | .rollback _ _ _ | .deferClose _ => true
  | .quickClosing fast _ => !fast
  | .result _ r => r == .backpressure
  | _ => false

def busy : Section → Bool
  | .quickClosing _ _ | .route _ | .append _ | .track _ | .write _ _ | .writeTracked _ => true
  | .flushTake next _ | .flushCount next _ _ | .flushWrite next _ _ | .flushRollback next _ _ _
  | .flushed next _ _ => Next.serves next
  | _ => false

def Next.isTail : Next → Bool
  | .tail _ => true
  | _ => false

def unmarked : Section → Bool
  | .setReceipt job _ | .setDone job | .markSent job | .result job _ | .closingMark job _ _ =>
    job.isClose
  | .deferClose _ => true
  | .flushTake next job | .flushCount next job _ | .flushWrite next job _
  | .flushRollback next job _ _ | .flushed next job _ => Next.isTail next && job == .heartbeatClose
  | .rawFlush job _ => job == .heartbeatClose
  | _ => false

def stray : Section → Bool
  | .setReceipt job _ | .setDone job | .markSent job => !job.isClose
  | _ => false

structure Knows (s : State) (a : Section) : Prop where
  line : Line s (load a)
  deferred : s.closeFrameDeferred = true → s.batch = [] ∧ load a = []
  bare : bare a = true → s.batch = []
  busy : busy a = true → s.closeFrameSent = false ∧ s.closeFrameDeferred = false
  minds : unmarked a = false → s.closeFrameSent = true ∨ s.closeFrameDeferred = true →
    s.closing = true
  stray : stray a = false

structure Free (s : State) : Prop where
  line : Line s []
  deferred : s.closeFrameDeferred = true → s.batch = []
  minds : s.closeFrameSent = true ∨ s.closeFrameDeferred = true → s.closing = true

def inLine : Guarded State Section := ⟨Free, Knows⟩

theorem lined_append {frames : List Frame} {n : Nat} (lined : Lined frames)
    (below : ∀ f ∈ frames, f.seq < n) (none : closesIn frames = 0) (kind : Kind) (size : Nat) :
    Lined (frames ++ [⟨kind, size, n⟩]) := by
  apply List.pairwise_append.mpr
  refine ⟨lined, List.pairwise_singleton _ _, ?_⟩
  intro f member g last
  rw [List.mem_singleton.mp last]
  refine ⟨below f member, ?_⟩
  intro close
  have never := List.countP_eq_zero.mp none f member
  rw [close] at never
  exact never rfl

theorem line_drop {frames : List Frame} (line : Line s frames) : Line s [] := by
  have fewer : (s.handed ++ [] ++ s.batch).Sublist (s.handed ++ frames ++ s.batch) :=
    ((List.Sublist.refl _).append (List.nil_sublist frames)).append (List.Sublist.refl _)
  exact ⟨line.lined.sublist fewer, fun f member => line.below f (fewer.subset member)⟩

theorem Knows.next (known : Knows s a) (loads : load b = load a ∨ load b = [])
    (bares : UwsWriteOrder.bare b = true → UwsWriteOrder.bare a = true ∨ s.batch = [])
    (busies : UwsWriteOrder.busy b = true → UwsWriteOrder.busy a = true ∨
      s.closeFrameSent = false ∧ s.closeFrameDeferred = false)
    (marks : unmarked b = false → unmarked a = false)
    (strays : UwsWriteOrder.stray b = false) : Knows s b := by
  refine ⟨?_, ?_, ?_, ?_, fun mark => known.minds (marks mark), strays⟩
  · rcases loads with same | none
    · rw [same]
      exact known.line
    · rw [none]
      exact line_drop known.line
  · intro set
    refine ⟨(known.deferred set).1, ?_⟩
    rcases loads with same | none
    · rw [same]
      exact (known.deferred set).2
    · exact none
  · intro on
    rcases bares on with was | empty
    · exact known.bare was
    · exact empty
  · intro on
    rcases busies on with was | free
    · exact known.busy was
    · exact free

theorem Knows.quiet (known : Knows s a) (mark : unmarked a = false) (opened : s.closing = false) :
    s.closeFrameSent = false ∧ s.closeFrameDeferred = false := by
  have minds := known.minds mark
  rw [opened] at minds
  simp only [Bool.false_eq_true, imp_false, not_or, Bool.not_eq_true] at minds
  exact minds

theorem knows_pure (step : Pure tracked s a more) (holder : holds a = true)
    (empty : ∀ job, a = .writeTracked job → s.batch = []) (known : Knows s a) (member : b ∈ more)
    (next : holds b = true) : Knows s b := by
  cases step
  all_goals simp only [List.mem_cons, List.not_mem_nil, or_false] at member
  all_goals first | (cases holder; done) | skip
  case resultCut n r =>
    rcases member with rfl | rfl | rfl
    · cases next
    · cases next
    · exact known.next (.inl rfl) nofun nofun id rfl
  all_goals subst member
  all_goals refine known.next ?_ ?_ ?_ ?_ ?_
  all_goals try first
    | exact .inl rfl
    | exact .inr rfl
    | rfl
    | exact fun on => on
    | exact fun on => .inl on
    | (intro on; cases on; done)
    | (intro _; rfl)
    | (intro _; exact .inl rfl)
  case enterPing.refine_3 opened | queueRoutes.refine_3 opened =>
    exact fun _ => .inr (known.quiet rfl opened)
  case quickOn.refine_2 sent deferred short =>
    exact fun on => .inr (short (by simpa [bare] using on))
  case quickOn.refine_3 sent deferred _ | closeTracked.refine_3 sent deferred _
    | closeRoutes.refine_3 sent deferred => exact fun _ => .inr ⟨sent, deferred⟩
  case flushNothing.refine_2 nothing => exact fun _ => .inr nothing
  case flushedFails.refine_4 serves =>
    intro _
    rcases serves with rfl | rfl <;> rfl
  case flushedTailed.refine_4 other | rawFlush.refine_4 other => simp [unmarked, other]
  case trackedOverflow.refine_2 => exact fun _ => .inr (empty _ rfl)
  case resultEnds.refine_4 other => exact fun _ => other
  case resultTail.refine_4 job _ other =>
    intro on
    cases job <;> first | rfl | exact on | exact absurd rfl (other _)

theorem kept_one (locked : s.mu = true) (known : Knows s b) : inLine.Kept mutex s ↑[b] := by
  refine ⟨?_, ?_⟩
  · intro unlocked
    exact absurd (locked.symm.trans unlocked) (by decide)
  · intro a member _
    rw [List.mem_singleton.mp (Multiset.mem_coe.mp member)]
    exact known

theorem no_close (token : Token s (a ::ₘ others))
    (one : mutex.taken s = weigh mutex.grip (a ::ₘ others)) (holder : mutex.grip a = 1)
    (idle : marking a = 0) (sent : s.closeFrameSent = false)
    (deferred : s.closeFrameDeferred = false) :
    closesIn s.handed = 0 ∧ closesIn s.batch = 0 ∧ carried a = 0 := by
  have few := calling_few others
  have most := taken_le mutex s
  obtain ⟨closes, _, _⟩ := token.none_queued sent deferred
  rw [weigh_cons, weigh_cons, idle] at closes
  rw [weigh_cons, holder] at one
  omega

theorem line_extend {frames : List Frame} (line : Line s frames)
    (none : closesIn (s.handed ++ frames ++ s.batch) = 0) (kind : Kind) (size : Nat) :
    Lined (s.handed ++ frames ++ s.batch ++ [⟨kind, size, s.accepted⟩]) ∧
      ∀ f ∈ s.handed ++ frames ++ s.batch ++ [⟨kind, size, s.accepted⟩],
        Frame.seq f < s.accepted + 1 := by
  refine ⟨lined_append line.lined line.below none kind size, ?_⟩
  intro f member
  rcases List.mem_append.mp member with earlier | last
  · exact Nat.lt_succ_of_lt (line.below f earlier)
  · rw [List.mem_singleton.mp last]
    exact Nat.lt_succ_self _

theorem line_batched {kind : Kind} {size : Nat} (line : Line s [])
    (handed : closesIn s.handed = 0) (batch : closesIn s.batch = 0) :
    Line { s with
      batch := s.batch ++ [⟨kind, size, s.accepted⟩]
      accepted := s.accepted + 1 } [] := by
  have grown := line_extend line
    (by rw [closesIn_append, closesIn_append, handed, batch]; rfl) kind size
  rw [List.append_assoc] at grown
  exact ⟨grown.1, grown.2⟩

theorem line_handed {kind : Kind} {size : Nat} (line : Line s []) (empty : s.batch = [])
    (handed : closesIn s.handed = 0) : Line (hand kind size s) [] := by
  have grown := line_extend line
    (by rw [closesIn_append, closesIn_append, handed, empty]; rfl) kind size
  rw [empty, List.append_nil, List.append_nil] at grown
  constructor
  · simpa [hand, empty] using grown.1
  · simpa [hand, empty] using grown.2

structure Same (s s' : State) : Prop where
  handed : s'.handed = s.handed
  batch : s'.batch = s.batch
  accepted : s'.accepted = s.accepted
  sent : s'.closeFrameSent = s.closeFrameSent
  deferred : s'.closeFrameDeferred = s.closeFrameDeferred
  closing : s.closing = true → s'.closing = true

theorem Line.frame {frames : List Frame} (line : Line s frames) (same : Same s s') :
    Line s' frames := by
  constructor
  · rw [same.handed, same.batch]
    exact line.lined
  · rw [same.handed, same.batch, same.accepted]
    exact line.below

theorem Knows.frame (known : Knows s b) (same : Same s s') : Knows s' b := by
  refine ⟨known.line.frame same, ?_, ?_, ?_, ?_, known.stray⟩
  · rw [same.deferred, same.batch]
    exact known.deferred
  · rw [same.batch]
    exact known.bare
  · rw [same.sent, same.deferred]
    exact known.busy
  · rw [same.sent, same.deferred]
    intro mark out
    exact same.closing (known.minds mark out)

theorem Free.frame (known : Free s) (same : Same s s') : Free s' := by
  refine ⟨known.line.frame same, ?_, ?_⟩
  · rw [same.deferred, same.batch]
    exact known.deferred
  · rw [same.sent, same.deferred]
    intro out
    exact same.closing (known.minds out)

theorem same_of_eq (handed : s'.handed = s.handed) (batch : s'.batch = s.batch)
    (accepted : s'.accepted = s.accepted) (sent : s'.closeFrameSent = s.closeFrameSent)
    (deferred : s'.closeFrameDeferred = s.closeFrameDeferred)
    (closing : s'.closing = s.closing) : Same s s' :=
  ⟨handed, batch, accepted, sent, deferred, fun on => closing.trans on⟩

theorem knows_accepted (line : Line s' []) (sent : s'.closeFrameSent = false)
    (deferred : s'.closeFrameDeferred = false) (loads : load b = []) (bares : bare b = false)
    (strays : stray b = false) : Knows s' b := by
  refine ⟨by rw [loads]; exact line, ?_, ?_, fun _ => ⟨sent, deferred⟩, ?_, strays⟩
  · intro set
    rw [deferred] at set
    cases set
  · intro on
    rw [bares] at on
    cases on
  · intro _ out
    rw [sent, deferred] at out
    rcases out with set | set <;> cases set

theorem inLine_held (step : Step tracked s a s' more)
    (empty : ∀ job, a = .writeTracked job → s.batch = []) (token : Token s (a ::ₘ others))
    (one : mutex.taken s = weigh mutex.grip (a ::ₘ others)) (holder : holds a = true)
    (locked : s.mu = true) (known : Knows s a) : inLine.Kept mutex s' ↑more := by
  cases step
  case stays step =>
    refine ⟨fun unlocked => absurd (locked.symm.trans unlocked) (by decide), ?_⟩
    intro b member next
    exact knows_pure step holder empty known (Multiset.mem_coe.mp member) next
  case append job size other =>
    obtain ⟨sent, deferred⟩ := known.busy rfl
    obtain ⟨handed, batch, _⟩ := no_close token one rfl rfl sent deferred
    exact kept_one locked
      (knows_accepted (line_batched known.line handed batch) sent deferred rfl rfl rfl)
  case appendClose job size close =>
    obtain ⟨sent, deferred⟩ := known.busy rfl
    obtain ⟨handed, batch, _⟩ := no_close token one rfl rfl sent deferred
    exact kept_one locked
      (knows_accepted (line_batched known.line handed batch) sent deferred rfl rfl
        (by simp [stray, close]))
  case write job size other =>
    obtain ⟨sent, deferred⟩ := known.busy rfl
    obtain ⟨handed, _, _⟩ := no_close token one rfl rfl sent deferred
    exact kept_one locked
      (knows_accepted (line_handed known.line (known.bare rfl) handed) sent deferred rfl rfl rfl)
  case writeClose job size close =>
    obtain ⟨sent, deferred⟩ := known.busy rfl
    obtain ⟨handed, _, _⟩ := no_close token one rfl rfl sent deferred
    exact kept_one locked
      (knows_accepted (line_handed known.line (known.bare rfl) handed) sent deferred rfl rfl
        (by simp [stray, close]))
  case writeTracked job size _ other =>
    obtain ⟨sent, deferred⟩ := known.busy rfl
    obtain ⟨handed, _, _⟩ := no_close token one rfl rfl sent deferred
    have line : Line (hand job.kind size s) [] := line_handed known.line (empty job rfl) handed
    exact kept_one locked
      (knows_accepted ⟨line.lined, line.below⟩ sent deferred rfl rfl rfl)
  case writeTrackedClose job size r close =>
    obtain ⟨sent, deferred⟩ := known.busy rfl
    obtain ⟨handed, _, _⟩ := no_close token one rfl rfl sent deferred
    have line : Line (hand .close size s) [] := line_handed known.line (empty job rfl) handed
    exact kept_one locked
      (knows_accepted ⟨line.lined, line.below⟩ sent deferred rfl rfl (by simp [stray, close]))
  case flushTake next job some =>
    refine kept_one locked ⟨?_, ?_, fun _ => rfl, known.busy, known.minds, rfl⟩
    · have line := known.line
      constructor
      · simpa [load] using line.lined
      · simpa [load] using line.below
    · intro set
      exact absurd (known.deferred set).1 some
  case flushWrite next job frames =>
    have bare : s.batch = [] := known.bare rfl
    have line := known.line
    refine kept_one locked ⟨?_, ?_, fun _ => bare, known.busy, known.minds, rfl⟩
    · constructor
      · simpa [load] using line.lined
      · simpa [load] using line.below
    · intro set
      exact ⟨bare, rfl⟩
  case markSent job =>
    refine kept_one locked ⟨⟨known.line.lined, known.line.below⟩, nofun,
      nofun, nofun, ?_, rfl⟩
    intro mark
    have close : job.isClose = true := by simpa [stray] using known.stray
    rw [unmarked, close] at mark
    cases mark
  case deferClose closer sent deferred =>
    exact kept_one locked ⟨⟨known.line.lined, known.line.below⟩, fun _ => ⟨known.bare rfl, rfl⟩,
      nofun, nofun, nofun, rfl⟩
  case flushBroken next job n =>
    refine ⟨fun unlocked => absurd (locked.symm.trans unlocked) (by decide), ?_⟩
    intro b member next
    simp only [Multiset.mem_coe, List.mem_cons, List.not_mem_nil, or_false] at member
    rcases member with rfl | rfl | rfl
    · cases next
    · cases next
    · exact Knows.frame (known.next (.inl rfl) (fun on => .inl on) (fun on => .inl on)
        id rfl) (same_of_eq rfl rfl rfl rfl rfl rfl)
  case writeTrackedFails job n closed =>
    refine kept_one locked (Knows.frame (known.next (.inl rfl) ?_ nofun
      (fun _ => rfl) rfl) (same_of_eq rfl rfl rfl rfl rfl rfl))
    intro on
    cases closed <;> cases on
  case closingMarkClose closer deferred | closingMark job r deferred _ =>
    exact kept_one locked ⟨⟨known.line.lined, known.line.below⟩, known.deferred,
      nofun, nofun, fun _ _ => rfl, rfl⟩
  case rawFlushFails job deferred closed other =>
    exact kept_one locked (Knows.frame (known.next (.inl rfl) nofun
      nofun (fun _ => by simp [unmarked, other]) rfl)
      (same_of_eq rfl rfl rfl rfl rfl rfl))
  case unlock job r deferred =>
    refine ⟨fun _ => ⟨⟨known.line.lined, known.line.below⟩, fun set => (known.deferred set).1,
      known.minds rfl⟩, ?_⟩
    intro b member next
    simp only [Multiset.mem_coe, List.mem_cons, List.not_mem_nil, or_false] at member
    rcases member with rfl | rfl <;> cases next
  case unlockFast =>
    exact ⟨fun _ => ⟨⟨known.line.lined, known.line.below⟩, fun set => (known.deferred set).1,
      known.minds rfl⟩, fun b member => absurd member (by simp)⟩
  all_goals first
    | (cases holder; done)
    | exact kept_one locked (Knows.frame (known.next (.inl rfl) (fun on => .inl on)
        (fun on => .inl on) id rfl) (same_of_eq rfl rfl rfl rfl rfl rfl))
    | exact kept_one locked (Knows.frame (known.next (.inr rfl) (fun _ => .inl rfl)
        (fun on => .inl on) id rfl) (same_of_eq rfl rfl rfl rfl rfl rfl))
    | exact kept_one locked (Knows.frame (known.next (.inl rfl) (fun _ => .inl rfl)
        nofun (fun _ => rfl) rfl) (same_of_eq rfl rfl rfl rfl rfl rfl))
    | exact kept_one locked (Knows.frame (known.next (.inl rfl) (fun on => .inl on)
        (fun on => .inl on) id known.stray) (same_of_eq rfl rfl rfl rfl rfl rfl))

/-- What is done without the lock: a stored Close is forgotten, a retry's Close is handed
    over, or it is marked. -/
inductive Outside (s : State) (a : Section) (s' : State) : Prop where
  | same : Same s s' → Outside s a s'
  | forgotten : Same { s with closeFrameDeferred := false } s' → Outside s a s'
  | retried (size : Nat) : fresh a = 1 → Same (hand .close size s) s' → Outside s a s'
  | marked : settled a = 1 →
      Same { s with closeFrameSent := true, closeFrameDeferred := false } s' → Outside s a s'

theorem outside_step (step : Step tracked s a s' more) (outside : holds a = false) :
    Outside s a s' := by
  cases step
  case stays => exact .same ⟨rfl, rfl, rfl, rfl, rfl, id⟩
  case markClosing | heartbeatClosing => exact .same ⟨rfl, rfl, rfl, rfl, rfl, fun _ => rfl⟩
  case claimAbort => exact .forgotten ⟨rfl, rfl, rfl, rfl, rfl, id⟩
  case retryWrite size | retryTracked size _ =>
    exact .retried size rfl ⟨rfl, rfl, rfl, rfl, rfl, id⟩
  case retryMark => exact .marked rfl ⟨rfl, rfl, rfl, rfl, rfl, id⟩
  all_goals first | (cases outside; done) | exact .same ⟨rfl, rfl, rfl, rfl, rfl, id⟩

theorem retry_alone (token : Token s (a ::ₘ others)) (mine : fresh a = 1) :
    s.closeFrameDeferred = true ∧ closesIn s.handed = 0 := by
  have retries := token.retries
  have most := Bool.toNat_le s.taken
  rw [weigh_cons, mine] at retries
  have out : s.taken = true := by
    apply Bool.of_not_eq_false
    intro free
    rw [free, Bool.toNat_false] at retries
    omega
  have deferred := token.out out
  obtain ⟨_, _, _, _, closes⟩ := token.deferred deferred
  exact ⟨deferred, by omega⟩

theorem settled_deferred (token : Token s (a ::ₘ others)) (mine : settled a = 1) :
    s.closeFrameDeferred = true := by
  have retries := token.retries
  rw [weigh_cons, weigh_cons, mine] at retries
  apply token.out
  apply Bool.of_not_eq_false
  intro free
  rw [free, Bool.toNat_false] at retries
  omega

theorem free_outside (effect : Outside s a s') (token : Token s (a ::ₘ others)) (free : Free s) :
    Free s' := by
  cases effect with
  | same same => exact free.frame same
  | forgotten same =>
    have cleared : Free { s with closeFrameDeferred := false } := by
      refine ⟨⟨free.line.lined, free.line.below⟩, nofun, ?_⟩
      intro out
      rcases out with sent | set
      · exact free.minds (.inl sent)
      · cases set
    exact cleared.frame same
  | retried size mine same =>
    obtain ⟨deferred, closes⟩ := retry_alone token mine
    have sent : Free (hand .close size s) :=
      ⟨line_handed free.line (free.deferred deferred) closes, free.deferred, free.minds⟩
    exact sent.frame same
  | marked mine same =>
    have deferred := settled_deferred token mine
    have sent : Free { s with closeFrameSent := true, closeFrameDeferred := false } :=
      ⟨⟨free.line.lined, free.line.below⟩, nofun,
        fun _ => free.minds (.inr deferred)⟩
    exact sent.frame same

theorem knows_outside (effect : Outside s a s') (token : Token s (a ::ₘ others))
    (known : Knows s b) : Knows s' b := by
  cases effect with
  | same same => exact known.frame same
  | forgotten same =>
    have cleared : Knows { s with closeFrameDeferred := false } b := by
      refine ⟨⟨known.line.lined, known.line.below⟩, nofun, known.bare,
        fun on => ⟨(known.busy on).1, rfl⟩, ?_, known.stray⟩
      intro mark out
      rcases out with sent | set
      · exact known.minds mark (.inl sent)
      · cases set
    exact cleared.frame same
  | retried size mine same =>
    obtain ⟨deferred, closes⟩ := retry_alone token mine
    obtain ⟨empty, loads⟩ := known.deferred deferred
    have line := known.line
    rw [loads] at line
    have sent : Knows (hand .close size s) b := by
      refine ⟨?_, known.deferred, known.bare, known.busy, known.minds, known.stray⟩
      rw [loads]
      exact line_handed line empty closes
    exact sent.frame same
  | marked mine same =>
    have deferred := settled_deferred token mine
    have sent : Knows { s with closeFrameSent := true, closeFrameDeferred := false } b := by
      refine ⟨⟨known.line.lined, known.line.below⟩, nofun, known.bare, ?_,
        fun mark _ => known.minds mark (.inr deferred), known.stray⟩
      intro on
      have free := (known.busy on).2
      rw [deferred] at free
      cases free
    exact sent.frame same

theorem taking_enters (step : Step tracked s a s' more) (outside : holds a = false)
    (member : b ∈ more) (holder : holds b = true) : ∃ job, b = .enter job ∧ Same s s' := by
  cases step
  case lock job _ => exact ⟨job, List.mem_singleton.mp member, ⟨rfl, rfl, rfl, rfl, rfl, id⟩⟩
  case stays step =>
    exfalso
    have balance := grip_pure step
    rw [grip_eq, outside, Bool.toNat_false] at balance
    have counted := List.single_le_sum (fun x _ => Nat.zero_le x) (mutex.grip b)
      (List.mem_map_of_mem (f := mutex.grip) member)
    rw [← balance, grip_eq, holder] at counted
    exact absurd counted (by decide)
  all_goals first
    | (cases outside; done)
    | exact absurd member List.not_mem_nil
    | (rcases List.mem_singleton.mp member with rfl; cases holder)
    | (rcases List.mem_pair.mp member with rfl | rfl <;> cases holder)

/-- A Close and a heartbeat's Ping go past the batch only when it is empty, and no abort
    disturbs a retry. -/
def Orderly (c : Choice) (a : Section) (s : State) : Prop :=
  Undisturbed c a s ∧ ∀ job, a = .writeTracked job → s.batch = []

section Runs

variable {h : Nat} {q : Pool State Section}

theorem token_orderly (run : Run (program tracked) Orderly (start tracked h) q) :
    Token q.state (owed q) ∧ mutex.taken q.state = weigh mutex.grip (owed q) := by
  have calm := run_mono (fun _ _ _ orderly => orderly.1) run
  exact ⟨token calm, mutex_exclusive calm⟩

theorem load_of_unheld (outside : holds a = false) : load a = [] := by
  cases a <;> first | rfl | cases outside

theorem knows_taken (job : Job) (free : Free s) : Knows s (.enter job) :=
  ⟨free.line, fun deferred => ⟨free.deferred deferred, rfl⟩, nofun,
    nofun, fun _ => free.minds, rfl⟩

theorem free_start : Free (start tracked h).state :=
  ⟨⟨List.Pairwise.nil, fun _ member => absurd member List.not_mem_nil⟩, nofun,
    fun out => by rcases out with out | out <;> cases out⟩

theorem inLine_kept (run : Run (program tracked) Orderly (start tracked h) q) :
    inLine.Kept mutex q.state (owed q) := by
  refine guarded_given (fun s owing => Token s owing ∧ mutex.taken s = weigh mutex.grip owing)
    (fun r before => token_orderly before) (handed tracked) (calls tracked) rfl
    ⟨fun _ => free_start, fun b member => absurd member (Multiset.notMem_zero b)⟩
    ?_ ?_ ?_ ?_ run
  · intro s others a c ready allowed facts holder locked known
    exact inLine_held (exec_step tracked c s a ready) allowed.2 facts.1 facts.2 holder locked known
  · intro s others a c ready allowed facts outside free
    exact free_outside (outside_step (exec_step tracked c s a ready) outside) facts.1 free
  · intro s others a b c ready allowed facts outside member holder free
    have step := exec_step tracked c s a ready
    obtain ⟨job, rfl, same⟩ := taking_enters step outside member holder
    exact knows_taken job (free.frame same)
  · intro s others a b c ready allowed facts outside holder known
    exact knows_outside (outside_step (exec_step tracked c s a ready) outside) facts.1 known

theorem line_of_run (run : Run (program tracked) Orderly (start tracked h) q) :
    ∃ frames, Line q.state frames ∧ ∀ a ∈ owed q, load a ≠ [] → load a = frames := by
  have kept := inLine_kept run
  have one := (token_orderly run).2
  cases locked : q.state.mu with
  | false =>
    refine ⟨[], (kept.1 locked).line, ?_⟩
    intro a member carries
    exact absurd (load_of_unheld (unheld one locked a member)) carries
  | true =>
    obtain ⟨a, member, holder⟩ := holder_exists one locked
    refine ⟨load a, (kept.2 a member holder).line, ?_⟩
    intro b other carries
    by_cases same : b = a
    · rw [same]
    · obtain ⟨others, split⟩ := Multiset.exists_cons_of_mem member
      rw [split] at one other
      have elsewhere := (Multiset.mem_cons.mp other).resolve_left same
      exact absurd (load_of_unheld (alone one holder b elsewhere)) carries

/-- In an orderly run the frames reach the transport in the order of their acceptance, a
    Close behind every frame accepted before it, and nothing behind a Close. -/
theorem frames_handed_in_order (tracked : Bool) (h : Nat) (q : Pool State Section)
    (run : Run (program tracked) Orderly (start tracked h) q) :
    Lined q.state.handed ∧ ∀ f ∈ q.state.handed, ∀ g,
      g ∈ q.state.batch ∨ (∃ a ∈ owed q, g ∈ load a) → f.seq < g.seq ∧ f.kind ≠ .close := by
  obtain ⟨frames, line, carried⟩ := line_of_run run
  have lined := line.lined
  rw [Lined, List.append_assoc, List.pairwise_append] at lined
  obtain ⟨before, _, across⟩ := lined
  refine ⟨before, ?_⟩
  intro f first g later
  apply across f first g
  rcases later with batched | ⟨a, member, loaded⟩
  · exact List.mem_append_right frames batched
  · rw [carried a member (List.ne_nil_of_mem loaded)] at loaded
    exact List.mem_append_left _ loaded

end Runs

def orderly (c : Choice) (a : Section) (s : State) : Bool :=
  undisturbed c a s && match a with
    | .writeTracked _ => s.batch.isEmpty
    | _ => true

theorem orderly_sound (c : Choice) (a : Section) (s : State) (passed : orderly c a s = true) :
    Orderly c a s := by
  simp only [orderly, Bool.and_eq_true] at passed
  refine ⟨undisturbed_sound c a s passed.1, ?_⟩
  rintro job rfl
  exact List.isEmpty_iff.mp passed.2

/-- A read round answers a message into the write batch; the Close that follows it in the
    same chunk is read. -/
def batchedReply : List (Move Section Choice) :=
  List.flatten [[.start .beginWriteBatch], runs 0 1 {}, [.start (.call (.message 0 false))],
    runs 1 4 { declines := true }, runs 1 2 {}, runs 1 1 { small := true, room := true },
    runs 1 1 { size := 2 }, runs 1 5 {}, [.start (.call (.close .peer))], runs 2 5 {}]

theorem frames_handed_in_order_batched : ∃ q, (Run (program false) Orderly (start false 0) q ∧
      q.state.handed = [⟨.data, 2, 0⟩, ⟨.close, 4, 1⟩]) ∧ Lined q.state.handed := by
  obtain ⟨q, run, checked⟩ := replay_meets orderly_sound
    (fun q => decide (q.state.handed = [⟨.data, 2, 0⟩, ⟨.close, 4, 1⟩]))
    (List.flatten [batchedReply, runs 2 5 {}, runs 2 1 { size := 4 }, runs 2 1 {}])
    (P := program false) (p := start false 0) (by decide +kernel) (by decide +kernel)
  exact ⟨q, ⟨run, of_decide_eq_true checked⟩, (frames_handed_in_order false 0 q run).1⟩

/-- With receipts the Close is written past the reply, which is handed over behind it. -/
theorem close_overtakes_batch : ∃ q, Reachable (program true) (start true 0) q ∧
    q.state.handed = [⟨.close, 4, 1⟩, ⟨.data, 2, 0⟩] := by
  obtain ⟨q, reached, checked⟩ := replay_reaches (P := program true) (p := start true 0)
    (List.flatten [batchedReply, runs 2 1 { size := 4, receipt := some ⟨4, false⟩ }, runs 2 7 {}])
    (fun q => decide (q.state.handed = [⟨.close, 4, 1⟩, ⟨.data, 2, 0⟩])) (by decide +kernel)
  exact ⟨q, reached, of_decide_eq_true checked⟩

end UwsWriteOrder
