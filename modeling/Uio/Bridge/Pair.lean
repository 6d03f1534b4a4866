import Uio.Interleaving

/-!
One relay of a bridge: two legs, each the other's destination. A leg's callbacks run one
at a time and never while the bridge's own pause holds it; reports of a destination's
queue and the partner's OnClose come on any thread. Every atomic operation is a section.
Queue lengths change with what the legs forward, what the connections send and what else
is written to them. Wake, a pause's release and new input each leave a turn due, which the
leg's next OnRead takes; OnRead may also run without one.
-/
namespace BridgePair
open Interleaving

def defaultBridgeInbound : Nat := 262144

def inboundLimit (limit : Int) : Nat := if 0 < limit then limit.toNat else defaultBridgeInbound

inductive Side where
  | a
  | b
deriving DecidableEq

def Side.other : Side → Side
  | .a => .b
  | .b => .a

/-- One leg as a source. `drains` is a 64-bit count, which no run of OnRead sees wrap.
    `due` is a turn asked for and not begun, `failed` an OnRead that gave up on its
    destination. From `attempts` on, what has happened: the forwards that left input behind, numbered,
    and the last of them that a report which has counted, claimed or finished came after;
    an OnRead between its look at the pair's closed mark and its own waiting mark; how far
    the partner's clean OnClose has come. -/
structure Leg where
  waiting : Bool := false
  drains : Nat := 0
  paused : Bool := false
  inbound : Nat := 0
  ended : Bool := false
  busy : Bool := false
  due : Bool := false
  failed : Bool := false
  attempts : Nat := 0
  reported : Nat := 0
  claimed : Nat := 0
  answered : Nat := 0
  marking : Bool := false
  released : Bool := false
  freed : Bool := false
  orphaned : Bool := false

/-- `queue` is a connection's OutboundBuffered, `shut` its CloseWrite, `closing` its
    CloseGracefully or its abort, `gone` its own OnClose. -/
structure State where
  closed : Bool := false
  queue : Side → Nat := fun _ => 0
  shut : Side → Bool := fun _ => false
  closing : Side → Bool := fun _ => false
  gone : Side → Bool := fun _ => false
  leg : Side → Leg := fun _ => {}

inductive Outcome where
  | accepted
  | overflow
  | gone
  | failed

structure Choice where
  bytes : Nat := 0
  outcome : Outcome := .accepted
  refuses : Bool := false

/-- What is done for a leg. `seen` is the number of attempts when the report looked. -/
inductive Act where
  | receive
  | peerEnds
  | enqueue
  -- OnRead of the leg.
  | onRead
  | closedCheck
  | orphan
  | loadDrains
  | look (drains : Nat)
  | forward (drains : Nat)
  | refused (drains : Nat)
  | forwardPrefix (drains : Nat)
  | inboundCheck (drains : Nat)
  | mark (drains : Nat)
  | recheck (drains : Nat)
  | unmark
  | hold
  | holdLook
  | holdResume
  -- A report of the destination's queue.
  | report
  | resumeSource
  | sourceOf (seen : Nat)
  | drainAdd (seen : Nat)
  | drainClaim (seen : Nat)
  | drainPaused (seen : Nat)
  | drainResume (seen : Nat)
  | drainWake (seen : Nat)
  -- OnClose of the partner.
  | onClose (clean : Bool)
  | closeSwap (clean : Bool)
  | closeUnmark
  | closePaused
  | closeResume
  | closeWake

structure Section where
  side : Side
  act : Act

def Leg.returns (l : Leg) : Leg := { l with busy := false, marking := false }

def Leg.fails (l : Leg) : Leg := { l.returns with failed := true }

def Leg.wake (l : Leg) : Leg := { l with due := true }

/-- The release of the bridge's pause, which runs the callback with what the leg retained. -/
def Leg.resume (l : Leg) : Leg := { l with paused := false, due := true }

def Leg.limited (l : Leg) (n : Nat) : Leg :=
  { l with inbound := l.inbound - n, attempts := l.attempts + 1 }

def Leg.claim (l : Leg) (seen : Nat) : Leg := { l with claimed := max l.claimed seen }

def Leg.answer (l : Leg) (seen : Nat) : Leg := { l with answered := max l.answered seen }

def taken (c : Choice) (l : Leg) : Nat := min c.bytes (l.inbound - 1)

def written (c : Choice) (again : Bool) (d : Nat) (l : Leg) : Leg × List Act :=
  match c.outcome with
  | .accepted => ({ l with inbound := 0 }, [.inboundCheck d])
  | .overflow =>
    if l.inbound = 0 then (l, [.inboundCheck d])
    else if again = false ∧ taken c l = 0 then (l.limited 0, [.refused d])
    else (l.limited (taken c l), [.inboundCheck d])
  | .gone | .failed => (l.fails, [])

def moved (c : Choice) (l : Leg) : Nat :=
  match c.outcome with
  | .accepted => l.inbound
  | .overflow => taken c l
  | .gone | .failed => 0

variable (limit : Int) (c : Choice)

def turn (s : State) (x : Side) (l : Leg) : Act → Leg × List Act
  | .receive => ({ l.wake with inbound := l.inbound + c.bytes }, [])
  | .peerEnds => ({ l.wake with ended := true }, [])
  | .enqueue => (l, [])
  | .onRead => ({ l with busy := true, due := false, failed := false }, [.closedCheck])
  | .closedCheck =>
    if s.closed then (l, [.orphan]) else ({ l with marking := true }, [.loadDrains])
  | .orphan => ({ l.returns with inbound := 0 }, [])
  | .loadDrains => (l, [.look l.drains])
  | .look d =>
    if s.queue x.other < inboundLimit limit then (l, [.forward d])
    else if l.inbound = 0 then (l, [.inboundCheck d])
    else (l.limited 0, [.inboundCheck d])
  | .forward d => written c false d l
  | .refused d => if s.queue x.other = 0 then (l, [.forwardPrefix d]) else (l, [.inboundCheck d])
  | .forwardPrefix d => written c true d l
  | .inboundCheck d => if l.inbound = 0 then (l.returns, []) else (l, [.mark d])
  | .mark d => ({ l with waiting := true, marking := false }, [.recheck d])
  | .recheck d =>
    if l.drains ≠ d then (l, [.unmark])
    else if inboundLimit limit ≤ l.inbound then (l, [.hold])
    else (l.returns, [])
  | .unmark => if l.waiting then ({ l.returns.wake with waiting := false }, []) else (l.returns, [])
  | .hold => if c.refuses then (l.returns, []) else ({ l with paused := true }, [.holdLook])
  | .holdLook => if l.waiting then (l.returns, []) else (l, [.holdResume])
  | .holdResume => (l.returns.resume, [])
  | .report => (l, [.resumeSource])
  | .resumeSource =>
    if inboundLimit limit / 2 < s.queue x.other then (l, []) else (l, [.sourceOf l.attempts])
  | .sourceOf seen => if s.gone x.other then (l, []) else (l, [.drainAdd seen])
  | .drainAdd seen =>
    ({ l with drains := l.drains + 1, reported := max l.reported seen }, [.drainClaim seen])
  | .drainClaim seen =>
    if l.waiting then ({ l.claim seen with waiting := false }, [.drainPaused seen])
    else ((l.claim seen).answer seen, [])
  | .drainPaused seen => if l.paused then (l, [.drainResume seen]) else (l, [.drainWake seen])
  | .drainResume seen => ((l.answer seen).resume, [])
  | .drainWake seen => ((l.answer seen).wake, [])
  | .onClose clean => (l, [.closeSwap clean])
  | .closeSwap clean => if s.closed || !clean then (l, []) else (l, [.closeUnmark])
  | .closeUnmark => ({ l with waiting := false, released := true }, [.closePaused])
  | .closePaused =>
    if l.paused then (l, [.closeResume]) else ({ l with freed := true }, [.closeWake])
  | .closeResume => ({ l.resume with freed := true, orphaned := true }, [])
  | .closeWake => ({ l.wake with orphaned := true }, [])

def around (x : Side) : Act → State → State
  | .enqueue, s =>
    { s with queue := Function.update s.queue x.other (s.queue x.other + c.bytes) }
  | .forward _, s | .forwardPrefix _, s =>
    { s with
      queue := Function.update s.queue x.other (s.queue x.other + moved c (s.leg x)) }
  | .inboundCheck _, s =>
    if (s.leg x).inbound = 0 ∧ (s.leg x).ended = true then
      { s with shut := Function.update s.shut x.other true }
    else s
  | .orphan, s =>
    if (s.leg x).ended then { s with closing := Function.update s.closing x true } else s
  | .report, s =>
    { s with queue := Function.update s.queue x.other (s.queue x.other - c.bytes) }
  | .onClose _, s =>
    { s with gone := Function.update s.gone x.other true }
  | .closeSwap clean, s =>
    if s.closed then s
    else if clean then { s with closed := true, shut := Function.update s.shut x true }
    else { s with closed := true, closing := Function.update s.closing x true }
  | _, s => s

def exec (a : Section) (s : State) : State × List Section :=
  ({ around c a.side a.act s with
      leg := Function.update s.leg a.side (turn limit c s a.side (s.leg a.side) a.act).1 },
    (turn limit c s a.side (s.leg a.side) a.act).2.map (Section.mk a.side))

def entry (a : Section) : Bool :=
  match a.act with
  | .receive | .peerEnds | .enqueue | .onRead | .report | .onClose _ => true
  | _ => false

/-- A leg's own callbacks and its input share its turns, and OnClose is the last. -/
def ready (a : Section) (s : State) : Bool :=
  match a.act with
  | .receive | .peerEnds => !(s.leg a.side).busy && !s.gone a.side
  | .onRead => !(s.leg a.side).busy && !(s.leg a.side).paused && !s.gone a.side
  | .onClose _ => !(s.leg a.side.other).busy && !s.gone a.side.other
  | _ => true

def program : Program State Section Choice := ⟨entry, ready, exec limit⟩

def start : Pool State Section := ⟨{}, []⟩

/-- What an act may find and do, by its outcomes; the pair's closed mark before and after. -/
inductive Turn (closed : Bool) (l : Leg) : Act → Bool → Leg → List Act → Prop where
  | receive (n : Nat) : l.busy = false →
      Turn closed l .receive closed { l.wake with inbound := l.inbound + n } []
  | peerEnds : Turn closed l .peerEnds closed { l.wake with ended := true } []
  | enqueue : Turn closed l .enqueue closed l []
  | onRead : l.busy = false → l.paused = false →
      Turn closed l .onRead closed { l with busy := true, due := false, failed := false }
        [.closedCheck]
  | orphaned : Turn closed l .closedCheck closed l [.orphan]
  | paired : closed = false →
      Turn closed l .closedCheck closed { l with marking := true } [.loadDrains]
  | orphan : Turn closed l .orphan closed { l.returns with inbound := 0 } []
  | loadDrains : Turn closed l .loadDrains closed l [.look l.drains]
  | room (d : Nat) : Turn closed l (.look d) closed l [.forward d]
  | nothing (d : Nat) : l.inbound = 0 → Turn closed l (.look d) closed l [.inboundCheck d]
  | full (d : Nat) : Turn closed l (.look d) closed (l.limited 0) [.inboundCheck d]
  | forwards (d : Nat) :
      Turn closed l (.forward d) closed { l with inbound := 0 } [.inboundCheck d]
  | forwardsNothing (d : Nat) : l.inbound = 0 → Turn closed l (.forward d) closed l [.inboundCheck d]
  | overflows (d n : Nat) : Turn closed l (.forward d) closed (l.limited n) [.inboundCheck d]
  | refused (d : Nat) : Turn closed l (.forward d) closed (l.limited 0) [.refused d]
  | forwardFails (d : Nat) : Turn closed l (.forward d) closed l.fails []
  | retries (d : Nat) : Turn closed l (.refused d) closed l [.forwardPrefix d]
  | behind (d : Nat) : Turn closed l (.refused d) closed l [.inboundCheck d]
  | forwardsPrefix (d : Nat) :
      Turn closed l (.forwardPrefix d) closed { l with inbound := 0 } [.inboundCheck d]
  | forwardsNoPrefix (d : Nat) : l.inbound = 0 →
      Turn closed l (.forwardPrefix d) closed l [.inboundCheck d]
  | overflowsAgain (d n : Nat) :
      Turn closed l (.forwardPrefix d) closed (l.limited n) [.inboundCheck d]
  | prefixFails (d : Nat) : Turn closed l (.forwardPrefix d) closed l.fails []
  | allForwarded (d : Nat) : l.inbound = 0 → Turn closed l (.inboundCheck d) closed l.returns []
  | left (d : Nat) : l.inbound ≠ 0 → Turn closed l (.inboundCheck d) closed l [.mark d]
  | mark (d : Nat) : Turn closed l (.mark d) closed { l with waiting := true, marking := false }
      [.recheck d]
  | drained (d : Nat) : Turn closed l (.recheck d) closed l [.unmark]
  | holds (d : Nat) : l.drains = d → Turn closed l (.recheck d) closed l [.hold]
  | waits (d : Nat) : l.drains = d → Turn closed l (.recheck d) closed l.returns []
  | unmark : Turn closed l .unmark closed { l.returns.wake with waiting := false } []
  | unmarked : l.waiting = false → Turn closed l .unmark closed l.returns []
  | holdRefused : Turn closed l .hold closed l.returns []
  | hold : Turn closed l .hold closed { l with paused := true } [.holdLook]
  | held : l.waiting = true → Turn closed l .holdLook closed l.returns []
  | holdLook : l.waiting = false → Turn closed l .holdLook closed l [.holdResume]
  | holdResume : Turn closed l .holdResume closed l.returns.resume []
  | report : Turn closed l .report closed l [.resumeSource]
  | high : Turn closed l .resumeSource closed l []
  | low : Turn closed l .resumeSource closed l [.sourceOf l.attempts]
  | unpaired (seen : Nat) : Turn closed l (.sourceOf seen) closed l []
  | sourceOf (seen : Nat) : Turn closed l (.sourceOf seen) closed l [.drainAdd seen]
  | drainAdd (seen : Nat) : Turn closed l (.drainAdd seen) closed
      { l with drains := l.drains + 1, reported := max l.reported seen } [.drainClaim seen]
  | claims (seen : Nat) : Turn closed l (.drainClaim seen) closed
      { l.claim seen with waiting := false } [.drainPaused seen]
  | nobody (seen : Nat) : l.waiting = false →
      Turn closed l (.drainClaim seen) closed ((l.claim seen).answer seen) []
  | drainPaused (seen : Nat) : Turn closed l (.drainPaused seen) closed l [.drainResume seen]
  | drainUnpaused (seen : Nat) : l.paused = false →
      Turn closed l (.drainPaused seen) closed l [.drainWake seen]
  | drainResume (seen : Nat) :
      Turn closed l (.drainResume seen) closed (l.answer seen).resume []
  | drainWake (seen : Nat) : Turn closed l (.drainWake seen) closed (l.answer seen).wake []
  | onClose (clean : Bool) : Turn closed l (.onClose clean) closed l [.closeSwap clean]
  | closedAlready (clean : Bool) : Turn closed l (.closeSwap clean) true l []
  | closes (clean : Bool) : Turn closed l (.closeSwap clean) true l [.closeUnmark]
  | closeUnmark : Turn closed l .closeUnmark closed { l with waiting := false, released := true }
      [.closePaused]
  | closePaused : Turn closed l .closePaused closed l [.closeResume]
  | closeUnpaused : l.paused = false →
      Turn closed l .closePaused closed { l with freed := true } [.closeWake]
  | closeResume : Turn closed l .closeResume closed
      { l.resume with freed := true, orphaned := true } []
  | closeWake : Turn closed l .closeWake closed { l.wake with orphaned := true } []

variable (s : State) (x : Side)

theorem around_closed (act : Act) (other : ∀ clean, act ≠ .closeSwap clean) :
    (around c x act s).closed = s.closed := by
  cases act <;> simp only [around] <;> first | rfl | (split_ifs <;> rfl) | exact absurd rfl (other _)

theorem turn_outcome (act : Act) (allowed : ready ⟨x, act⟩ s = true) :
    Turn s.closed (s.leg x) act (around c x act s).closed (turn limit c s x (s.leg x) act).1
      (turn limit c s x (s.leg x) act).2 := by
  by_cases other : ∀ clean, act ≠ .closeSwap clean
  case neg =>
    obtain ⟨clean, rfl⟩ := not_forall_not.mp other
    have closes : (around c x (.closeSwap clean) s).closed = true := by
      simp only [around]
      split_ifs with was <;> first | exact was | rfl
    rw [closes]
    simp only [turn]
    split_ifs
    · exact .closedAlready _
    · exact .closes _
  rw [around_closed c s x act other]
  cases act with
  | closeSwap clean => exact absurd rfl (other clean)
  | receive =>
    simp only [ready, Bool.and_eq_true, Bool.not_eq_eq_eq_not, Bool.not_true] at allowed
    exact .receive _ allowed.1
  | onRead =>
    simp only [ready, Bool.and_eq_true, Bool.not_eq_eq_eq_not, Bool.not_true] at allowed
    exact .onRead allowed.1.1 allowed.1.2
  | forward d =>
    simp only [turn, written]
    cases c.outcome with
    | accepted => exact .forwards d
    | overflow =>
      dsimp only
      split_ifs with empty none
      · exact .forwardsNothing d empty
      · exact .refused d
      · exact .overflows d _
    | gone | failed => exact .forwardFails d
  | forwardPrefix d =>
    simp only [turn, written]
    cases c.outcome with
    | accepted => exact .forwardsPrefix d
    | overflow =>
      dsimp only
      split_ifs with empty none
      · exact .forwardsNoPrefix d empty
      · exact absurd none.1 (by decide)
      · exact .overflowsAgain d _
    | gone | failed => exact .prefixFails d
  | closedCheck =>
    simp only [turn]
    split_ifs with closed
    · exact .orphaned
    · exact .paired (Bool.of_not_eq_true closed)
  | look d =>
    simp only [turn]
    split_ifs with room empty
    · exact .room d
    · exact .nothing d empty
    · exact .full d
  | recheck d =>
    simp only [turn]
    split_ifs with drained full
    · exact .drained d
    · exact .holds d (not_not.mp drained)
    · exact .waits d (not_not.mp drained)
  | inboundCheck d =>
    simp only [turn]
    split_ifs with empty
    · exact .allForwarded d empty
    · exact .left d empty
  | refused d =>
    simp only [turn]
    split_ifs
    · exact .retries d
    · exact .behind d
  | hold =>
    simp only [turn]
    split_ifs
    · exact .holdRefused
    · exact .hold
  | holdLook =>
    simp only [turn]
    split_ifs with waiting
    · exact .held waiting
    · exact .holdLook (Bool.of_not_eq_true waiting)
  | resumeSource =>
    simp only [turn]
    split_ifs
    · exact .high
    · exact .low
  | sourceOf seen =>
    simp only [turn]
    split_ifs
    · exact .unpaired seen
    · exact .sourceOf seen
  | drainClaim seen =>
    simp only [turn]
    split_ifs with waiting
    · exact .claims seen
    · exact .nobody seen (Bool.of_not_eq_true waiting)
  | drainPaused seen =>
    simp only [turn]
    split_ifs with paused
    · exact .drainPaused seen
    · exact .drainUnpaused seen (Bool.of_not_eq_true paused)
  | closePaused =>
    simp only [turn]
    split_ifs with paused
    · exact .closePaused
    · exact .closeUnpaused (Bool.of_not_eq_true paused)
  | orphan => exact .orphan
  | peerEnds => exact .peerEnds
  | enqueue => exact .enqueue
  | loadDrains => exact .loadDrains
  | mark d => exact .mark d
  | unmark =>
    simp only [turn]
    split_ifs with waiting
    · exact .unmark
    · exact .unmarked (Bool.of_not_eq_true waiting)
  | holdResume => exact .holdResume
  | report => exact .report
  | drainAdd seen => exact .drainAdd seen
  | drainResume seen => exact .drainResume seen
  | drainWake seen => exact .drainWake seen
  | onClose clean => exact .onClose clean
  | closeUnmark => exact .closeUnmark
  | closeResume => exact .closeResume
  | closeWake => exact .closeWake

inductive Seen (x : Side) (s : State) (a : Section) (s' : State) (more : List Section) : Prop where
  | own (acts : List Act) : a.side = x → Turn s.closed (s.leg x) a.act s'.closed (s'.leg x) acts →
      more = acts.map (Section.mk x) → Seen x s a s' more
  | other : a.side ≠ x → s'.leg x = s.leg x → (s.closed = true → s'.closed = true) →
      (∀ b ∈ more, b.side ≠ x) → Seen x s a s' more

theorem exec_seen (a : Section) (allowed : ready a s = true) :
    Seen x s a (exec limit c a s).1 (exec limit c a s).2 := by
  by_cases same : a.side = x
  · subst same
    refine .own _ rfl ?_ rfl
    simp only [exec, Function.update_self]
    exact turn_outcome limit c s a.side a.act allowed
  · refine .other same ?_ ?_ ?_
    · simp only [exec, Function.update_of_ne (Ne.symm same)]
    · intro closed
      simp only [exec]
      cases a.act <;> simp only [around] <;> first | exact closed | (split_ifs <;> exact closed)
    · intro b member
      obtain ⟨act, _, rfl⟩ := List.mem_map.mp member
      exact same

end BridgePair
