import Uio.Uws.Heartbeat

/-!
The heartbeat's ticks and the wake timer they aim. The timer is one-shot and held by the
transport; `armedAt` mirrors it. Ticks, Pongs and the begin run on the connection's turn,
one after the other, while other threads report what left and may close the connection:
they act between the steps of a tick too. The clock never goes back.
-/
namespace UwsHeartbeatWake
open UwsHeartbeat

/-- `wake` is the deadline the transport holds; `staged` is input the handshake left. -/
structure Conn where
  heartbeat : Heartbeat := {}
  closed : Bool := false
  closing : Bool := false
  readPaused : Bool := false
  staged : Bool := false
  wake : Option Int := none
  clock : Int

/-- What other threads do: time passes, bytes or a receipt are reported sent, the
connection is closed. -/
inductive Other where
  | elapse (nanos : Nat)
  | transportSent (retired : Nat)
  | receiptSent (receipt : Nat)
  | close (closed : Bool)

/-- The answer of `SetWakeDeadline`; a refused one may leave any timer. -/
inductive Arm where
  | taken
  | refused (left : Option Int)
  deriving DecidableEq

inductive SendError where
  | closed
  | backpressure
  | failed

/-- How the Ping is followed: by the position it ends at, or by its receipt. -/
inductive Tracking where
  | position (accepted : Nat)
  | receipt (receipt : Nat)

/-- What a tick meets: the acts of other threads before each of its steps, the Ping's
fate and the transport's answer to its arm. -/
structure Meets where
  gap : Nat → List Other
  randFails : Bool
  nonce : Nat
  tracking : Tracking
  answer : Option SendError
  arm : Arm

namespace Conn

def isOpen (c : Conn) : Bool := !c.closed && !c.closing

def act (c : Conn) : Other → Conn
  | .elapse nanos => { c with clock := c.clock + nanos }
  | .transportSent retired => { c with heartbeat := c.heartbeat.markPingSent retired c.clock }
  | .receiptSent receipt =>
    match c.heartbeat.claimPingReceipt receipt with
    | (h, true) => { c with heartbeat := h.markPingReceiptSent c.clock }
    | (_, false) => c
  | .close true => { c with closed := true }
  | .close false => { c with closing := true }

def others (c : Conn) (acts : List Other) : Conn := acts.foldl act c

def zeroNano : Int := -6795364578871345152

def armHeartbeatWake (c : Conn) (arm : Arm) (next : Option Int) : Conn :=
  match arm with
  | .taken =>
    { c with wake := next, heartbeat := { c.heartbeat with armedAt := next.getD zeroNano } }
  | .refused left => { c with wake := left, heartbeat := { c.heartbeat with armedAt := 0 } }

variable (cfg : Timing) (env : Meets)

def beginHeartbeat (c : Conn) : Conn :=
  let next := c.clock + cfg.heartbeatInterval
  armHeartbeatWake { c with heartbeat := { c.heartbeat with nextPingAt := next } } env.arm
    (some next)

/-- The Ping is handed to the transport, and followed when that took it. -/
def writePing (c : Conn) : Conn × Option SendError :=
  let c :=
    match env.tracking with
    | .position accepted => { c with heartbeat := c.heartbeat.markPingTarget env.nonce accepted }
    | .receipt _ => c
  let c := c.others (env.gap 3)
  match env.tracking, env.answer with
  | .receipt r, none => ({ c with heartbeat := c.heartbeat.setPingReceipt r }, none)
  | _, answer => (c, answer)

def sendHeartbeatPing (c : Conn) (now : Int) : Conn × Option SendError :=
  if c.isOpen = false then (c, some .closed)
  else if env.randFails then (c, some .failed)
  else
    let c := c.others (env.gap 2)
    if c.isOpen = false then (c, some .closed)
    else
      match c.heartbeat.beginPing now env.nonce with
      | (_, false) => (c, none)
      | (h, true) =>
        match writePing env { c with heartbeat := h } with
        | (c, none) => (c.others (env.gap 4), none)
        | (c, some err) =>
          let c := c.others (env.gap 4)
          ({ c with heartbeat := c.heartbeat.cancelPing env.nonce }, some err)

def moveOn (c : Conn) (now : Int) : Conn :=
  { c with heartbeat := { c.heartbeat with nextPingAt := now + cfg.heartbeatInterval } }

/-- The tick's Ping, when it is due; a failed one on an open connection aborts it and ends
the tick. -/
def pingWhenDue (c : Conn) (now : Int) : Conn × Bool :=
  if c.heartbeat.pingOutstanding = false ∧ c.heartbeat.nextPingAt ≤ now then
    match sendHeartbeatPing env c now with
    | (c, none) => (moveOn cfg c now, false)
    | (c, some .backpressure) =>
      (moveOn cfg { c with heartbeat := c.heartbeat.noteSendStall now } now, false)
    | (c, some _) =>
      if c.isOpen then ({ c with closing := true }, true) else (moveOn cfg c now, false)
  else (c, false)

def aim (c : Conn) (now : Int) : Conn :=
  let deadline := c.heartbeat.expiryLocked cfg.heartbeatTimeout
  let c := c.others (env.gap 5)
  let next :=
    if c.heartbeat.pingOutstanding then deadline
    else some (Heartbeat.earlier deadline c.heartbeat.nextPingAt)
  if next.getD zeroNano ≠ c.heartbeat.armedAt ∨ next.all (fun next => next ≤ now) then
    c.armHeartbeatWake env.arm next
  else c

def decideTick (c : Conn) (now : Int) : Conn :=
  match c.heartbeat.expirePing now cfg.heartbeatTimeout with
  | (h, true) => { c with heartbeat := h, closing := true }
  | (h, false) =>
    let c := { c with heartbeat := h }
    if c.heartbeat.nextPingAt = 0 then c
    else
      match pingWhenDue cfg env c now with
      | (c, true) => c
      | (c, false) => aim cfg env c now

def heartbeatTick (c : Conn) (now : Int) : Conn :=
  if c.isOpen = false then c
  else if c.heartbeat.steady now then c
  else
    let c := c.others (env.gap 0)
    match c.heartbeat.deferExpiry now cfg.heartbeatTimeout c.staged with
    | (h, true) => armHeartbeatWake { c with heartbeat := h } env.arm (some now)
    | (h, false) => decideTick cfg env (others { c with heartbeat := h } (env.gap 1)) now

def timerTick (c : Conn) (now : Int) (unparsed : Bool) : Conn :=
  if c.isOpen = false then c
  else if unparsed && !c.readPaused then
    match c.heartbeat.deferExpiry now cfg.heartbeatTimeout true with
    | (h, true) => armHeartbeatWake { c with heartbeat := h } env.arm (some now)
    | (h, false) => heartbeatTick cfg env { c with heartbeat := h } now
  else heartbeatTick cfg env c now

end Conn

/-- A data turn's tick, the timer's own, and what happens between the ticks. -/
inductive Event where
  | begin (env : Meets)
  | data (env : Meets)
  | timer (env : Meets) (unparsed : Bool)
  | pong (nonce : Nat)
  | frame
  | pause (paused : Bool)
  | stage (staged : Bool)
  | other (act : Other)

def step (cfg : Timing) (c : Conn) : Event → Conn
  | .begin env => c.beginHeartbeat cfg env
  | .data env => c.heartbeatTick cfg env c.clock
  | .timer env unparsed =>
    -- The transport runs the callback once the deadline it holds has passed, and drops it.
    if c.wake.any (fun wake => wake ≤ c.clock) then
      Conn.timerTick cfg env { c with wake := none } c.clock unparsed
    else c
  | .pong nonce => { c with heartbeat := (c.heartbeat.acknowledgePing nonce).1 }
  | .frame => { c with heartbeat := { c.heartbeat with parsed := c.heartbeat.parsed + 1 } }
  | .pause paused => { c with readPaused := paused }
  | .stage staged => { c with staged := staged }
  | .other act => c.act act

def run (cfg : Timing) (c : Conn) (events : List Event) : Conn := events.foldl (step cfg) c

def fresh (start : Nat) : Conn := { clock := start + 1 }

section Frame

structure Moved (c c' : Conn) : Prop where
  clock : c.clock ≤ c'.clock
  wake : c'.wake = c.wake
  armed : c'.heartbeat.armedAt = c.heartbeat.armedAt
  next : c'.heartbeat.nextPingAt = c.heartbeat.nextPingAt
  outstanding : c'.heartbeat.pingOutstanding = c.heartbeat.pingOutstanding
  queued : c'.heartbeat.pingQueuedAt = c.heartbeat.pingQueuedAt
  sent : c'.heartbeat.pingSentAt = c.heartbeat.pingSentAt ∨
    c.heartbeat.pingSentAt = 0 ∧ c.clock ≤ c'.heartbeat.pingSentAt
  stalled : c'.heartbeat.sendStalledAt = c.heartbeat.sendStalledAt ∨
    c.heartbeat.pingOutstanding = true ∧ c'.heartbeat.sendStalledAt = 0
  shut : c'.isOpen = true → c.isOpen = true

theorem Moved.refl (c : Conn) : Moved c c :=
  ⟨Int.le_refl _, rfl, rfl, rfl, rfl, rfl, .inl rfl, .inl rfl, id⟩

theorem Moved.trans {a b c : Conn} (first : Moved a b) (second : Moved b c) : Moved a c where
  clock := Int.le_trans first.clock second.clock
  wake := second.wake.trans first.wake
  armed := second.armed.trans first.armed
  next := second.next.trans first.next
  outstanding := second.outstanding.trans first.outstanding
  queued := second.queued.trans first.queued
  sent := by
    have := first.clock
    rcases first.sent with one | one <;> rcases second.sent with two | two <;> omega
  stalled := by
    have same := first.outstanding
    rcases first.stalled with one | one <;> rcases second.stalled with two | two
    · exact .inl (two.trans one)
    · exact .inr ⟨same ▸ two.1, two.2⟩
    · exact .inr ⟨one.1, two.trans one.2⟩
    · exact .inr ⟨one.1, two.2⟩
  shut := fun fine => first.shut (second.shut fine)

theorem moved_sent (c : Conn) {h : Heartbeat}
    (marked : h = c.heartbeat ∨ c.heartbeat.pingOutstanding = true ∧ c.heartbeat.pingSentAt = 0 ∧
      h = { c.heartbeat with pingSentAt := c.clock, sendStalledAt := 0 }) :
    Moved c { c with heartbeat := h } := by
  rcases marked with rfl | ⟨outstanding, unsent, same⟩
  · exact .refl c
  · rw [same]
    exact ⟨Int.le_refl _, rfl, rfl, rfl, rfl, rfl, .inr ⟨unsent, Int.le_refl _⟩,
      .inr ⟨outstanding, rfl⟩, id⟩

theorem moved_act (c : Conn) (act : Other) : Moved c (c.act act) := by
  cases act with
  | elapse nanos => exact { Moved.refl c with clock := by simp only [Conn.act]; omega }
  | transportSent retired =>
    apply moved_sent
    unfold Heartbeat.markPingSent
    split
    · rename_i marked
      exact .inr ⟨marked.1, marked.2.1, rfl⟩
    · exact .inl rfl
  | receiptSent receipt =>
    have taken : Moved c { c with heartbeat := { c.heartbeat with pingReceipt := 0 } } :=
      ⟨Int.le_refl _, rfl, rfl, rfl, rfl, rfl, .inl rfl, .inl rfl, id⟩
    simp only [Conn.act, Heartbeat.claimPingReceipt]
    split
    · rename_i h claimed
      split at claimed
      · cases claimed
      · cases claimed
        refine taken.trans (moved_sent _ ?_)
        unfold Heartbeat.markPingReceiptSent
        split
        · rename_i marked
          exact .inr ⟨marked.1, marked.2, rfl⟩
        · exact .inl rfl
    · exact .refl c
  | close closed =>
    cases closed with
    | true | false =>
      exact { Moved.refl c with shut := fun fine => by simp [Conn.isOpen, Conn.act] at fine }

theorem moved_others (c : Conn) (acts : List Other) : Moved c (c.others acts) := by
  induction acts generalizing c with
  | nil => exact .refl c
  | cons act acts ih => exact (moved_act c act).trans (ih (c.act act))

end Frame

section Moments
variable {c c' : Conn} {timeout now : Int}

/-- The moments of a connection are not ahead of its clock, and a Ping is sent only after
the heartbeat began. -/
structure Fit (c : Conn) : Prop where
  clock : 0 < c.clock
  queued : c.heartbeat.pingOutstanding = true →
    0 < c.heartbeat.pingQueuedAt ∧ c.heartbeat.pingQueuedAt ≤ c.clock
  stalled : 0 ≤ c.heartbeat.sendStalledAt ∧ c.heartbeat.sendStalledAt ≤ c.clock
  sent : 0 ≤ c.heartbeat.pingSentAt
  next : 0 ≤ c.heartbeat.nextPingAt
  begun : c.heartbeat.nextPingAt = 0 →
    c.heartbeat.armedAt = 0 ∧ c.heartbeat.pingOutstanding = false

theorem Moved.fit (moved : Moved c c') (fit : Fit c) : Fit c' where
  clock := by have := moved.clock; have := fit.clock; omega
  queued := by
    intro outstanding
    have := fit.queued (moved.outstanding ▸ outstanding)
    have := moved.clock
    have := moved.queued
    omega
  stalled := by
    have := fit.stalled
    have := moved.clock
    rcases moved.stalled with same | ⟨-, none⟩ <;> have := fit.clock <;> omega
  sent := by
    have := fit.sent
    have := fit.clock
    rcases moved.sent with same | later <;> omega
  next := by rw [moved.next]; exact fit.next
  begun := by rw [moved.next, moved.armed, moved.outstanding]; exact fit.begun

theorem Fit.started (fit : Fit c) (outstanding : c.heartbeat.pingOutstanding = true) :
    0 < c.heartbeat.startedAt := by
  have := fit.sent
  have := fit.queued outstanding
  unfold Heartbeat.startedAt
  split <;> omega

theorem Fit.expiry (fit : Fit c) (outstanding : c.heartbeat.pingOutstanding = true) :
    c.heartbeat.expiryLocked timeout = some (c.heartbeat.startedAt + timeout) := by
  have := fit.started outstanding
  simp only [Heartbeat.expiryLocked, outstanding, if_true]
  exact if_neg (by omega)

theorem expiry_idle (timeout : Int) {h h' : Heartbeat} (idle : h.pingOutstanding = false)
    (idle' : h'.pingOutstanding = false) (same : h'.sendStalledAt = h.sendStalledAt) :
    h'.expiryLocked timeout = h.expiryLocked timeout := by
  simp only [Heartbeat.expiryLocked, idle, idle', same, Bool.false_eq_true, if_false]

theorem Moved.started (moved : Moved c c') (fit : Fit c)
    (outstanding : c.heartbeat.pingOutstanding = true) :
    c.heartbeat.startedAt ≤ c'.heartbeat.startedAt := by
  have := fit.sent
  have := fit.clock
  have := fit.queued outstanding
  have := moved.queued
  unfold Heartbeat.startedAt
  rcases moved.sent with same | later
  · simp only [same, moved.queued, Int.le_refl]
  · rw [if_neg (by omega), if_pos (by omega)]
    omega

theorem Moved.idle (moved : Moved c c') (idle : c.heartbeat.pingOutstanding = false) :
    c'.heartbeat.sendStalledAt = c.heartbeat.sendStalledAt := by
  rcases moved.stalled with same | ⟨set, -⟩
  · exact same
  · rw [idle] at set
    cases set

end Moments

section Ticks
variable {cfg : Timing} {env : Meets} {c : Conn} {now : Int}

/-- The transport holds what the mirror says, or the timer has brought this turn. -/
def Mirrored (c : Conn) (now : Int) : Prop :=
  c.isOpen = true → c.heartbeat.armedAt ≠ 0 →
    c.wake = some c.heartbeat.armedAt ∨ c.heartbeat.armedAt ≤ now

/-- The wake a tick at `now` leaves comes no later than the next decision. A tick that put
off an expiry already passed is woken at once: at its own moment. -/
def Timely (cfg : Timing) (now : Int) (c : Conn) : Prop :=
  ∃ wake decision, c.wake = some wake ∧
    c.heartbeat.heartbeatBoundary cfg.heartbeatTimeout = some decision ∧
    (wake ≤ decision ∨
      wake = now ∧ c.heartbeat.pingOutstanding = true ∧ c.heartbeat.pingSentAt ≠ 0 ∧
        decision ≤ now ∧ now < decision + cfg.heartbeatTimeout)

/-- What a tick leaves: the mirror right, and with its arm taken the wake timely. -/
structure Ticked (cfg : Timing) (env : Meets) (now : Int) (c : Conn) : Prop where
  fit : Fit c
  mirror : c.isOpen = true → c.heartbeat.armedAt ≠ 0 → c.wake = some c.heartbeat.armedAt
  timely : c.isOpen = true → c.heartbeat.nextPingAt ≠ 0 → env.arm = .taken → Timely cfg now c

theorem ticked_shut (fit : Fit c) (shut : c.isOpen = false) : Ticked cfg env now c :=
  ⟨fit, fun fine => absurd fine (by rw [shut]; decide), fun fine => absurd fine (by rw [shut]; decide)⟩

theorem fit_arm {next : Option Int} (fit : Fit c) (begun : c.heartbeat.nextPingAt ≠ 0) :
    Fit (c.armHeartbeatWake env.arm next) := by
  unfold Conn.armHeartbeatWake
  split
  · exact ⟨fit.clock, fit.queued, fit.stalled, fit.sent, fit.next, fun none => absurd none begun⟩
  · exact ⟨fit.clock, fit.queued, fit.stalled, fit.sent, fit.next, fun none => absurd none begun⟩

theorem ticked_arm {next : Int} (fit : Fit c) (begun : c.heartbeat.nextPingAt ≠ 0)
    (timely : env.arm = .taken → Timely cfg now (c.armHeartbeatWake env.arm (some next))) :
    Ticked cfg env now (c.armHeartbeatWake env.arm (some next)) where
  fit := fit_arm fit begun
  mirror := by
    unfold Conn.armHeartbeatWake
    split
    · intro _ _
      rfl
    · intro _ armed
      exact absurd rfl armed
  timely := fun _ _ => timely

theorem boundary_armed (h : Heartbeat) (timeout armed : Int) :
    Heartbeat.heartbeatBoundary { h with armedAt := armed } timeout = h.heartbeatBoundary timeout :=
  rfl

theorem wake_arm (c : Conn) (next : Option Int) (taken : env.arm = .taken) :
    (c.armHeartbeatWake env.arm next).wake = next ∧
      ∀ timeout, (c.armHeartbeatWake env.arm next).heartbeat.heartbeatBoundary timeout =
        c.heartbeat.heartbeatBoundary timeout := by
  rw [taken]
  exact ⟨rfl, fun timeout => boundary_armed _ timeout _⟩

theorem earlier_pos (cfg : Timing) {h : Heartbeat} (stalled : 0 ≤ h.sendStalledAt) (begun : 0 < h.nextPingAt)
    (idle : h.pingOutstanding = false) :
    0 < Heartbeat.earlier (h.expiryLocked cfg.heartbeatTimeout) h.nextPingAt := by
  have := cfg.timeout_pos
  simp only [Heartbeat.expiryLocked, idle, Bool.false_eq_true, if_false]
  unfold Heartbeat.earlier
  split
  · exact begun
  · rename_i deadline set
    split at set
    · cases set
    · cases set
      split <;> omega

theorem boundary_idle {h : Heartbeat} {timeout : Int} (begun : h.nextPingAt ≠ 0)
    (idle : h.pingOutstanding = false) :
    h.heartbeatBoundary timeout = some (Heartbeat.earlier (h.expiryLocked timeout) h.nextPingAt) := by
  rw [Heartbeat.heartbeatBoundary, if_neg begun, idle, if_neg (by decide)]

theorem next_le_decision (cfg : Timing) {c' : Conn} (moved : Moved c c') (fit : Fit c)
    (begun : c.heartbeat.nextPingAt ≠ 0) : ∃ wake decision,
      (if c'.heartbeat.pingOutstanding then c.heartbeat.expiryLocked cfg.heartbeatTimeout
        else some (Heartbeat.earlier (c.heartbeat.expiryLocked cfg.heartbeatTimeout) c'.heartbeat.nextPingAt)) =
        some wake ∧
      c'.heartbeat.heartbeatBoundary cfg.heartbeatTimeout = some decision ∧ wake ≤ decision ∧
        0 < wake := by
  have begun' : c'.heartbeat.nextPingAt ≠ 0 := by rw [moved.next]; exact begun
  have later := fit.next
  have timeout := cfg.timeout_pos
  cases outstanding : c.heartbeat.pingOutstanding with
  | true =>
    have outstanding' : c'.heartbeat.pingOutstanding = true := moved.outstanding.trans outstanding
    have positive := fit.started outstanding
    have started := moved.started fit outstanding
    refine ⟨_, _, ?_, ?_, Int.add_le_add_right started cfg.heartbeatTimeout, by omega⟩
    · rw [if_pos outstanding', fit.expiry outstanding]
    · rw [Heartbeat.heartbeatBoundary, if_neg begun', if_pos outstanding',
        (moved.fit fit).expiry outstanding']
  | false =>
    have idle' : c'.heartbeat.pingOutstanding = false := moved.outstanding.trans outstanding
    have same := expiry_idle cfg.heartbeatTimeout outstanding idle' (moved.idle outstanding)
    have fit' := moved.fit fit
    have positive := earlier_pos cfg fit'.stalled.1
      (show 0 < c'.heartbeat.nextPingAt by have := fit'.next; omega) idle'
    refine ⟨_, _, ?_, boundary_idle begun' idle', Int.le_refl _, positive⟩
    rw [if_neg (by rw [idle']; decide), same]

theorem ticked_aim (fit : Fit c) (begun : c.heartbeat.nextPingAt ≠ 0) (mirror : Mirrored c now) :
    Ticked cfg env now (c.aim cfg env now) := by
  have moved := moved_others c (env.gap 5)
  have fit' := moved.fit fit
  have begun' : (c.others (env.gap 5)).heartbeat.nextPingAt ≠ 0 := by rw [moved.next]; exact begun
  obtain ⟨wake, decision, next, boundary, early, positive⟩ := next_le_decision cfg moved fit begun
  simp only [Conn.aim, next, Option.getD_some, Option.all_some, decide_eq_true_eq]
  generalize c.others (env.gap 5) = c' at moved fit' begun' next boundary
  split
  · apply ticked_arm fit' begun'
    intro taken
    obtain ⟨held, same⟩ := wake_arm c' (some wake) taken
    exact ⟨wake, decision, held, (same _).trans boundary, .inl early⟩
  · rename_i kept
    have armed : c'.heartbeat.armedAt = wake := by
      rcases Decidable.em (wake = c'.heartbeat.armedAt) with same | other
      · exact same.symm
      · exact absurd (.inl other) kept
    have future : now < wake := Int.lt_of_not_ge fun past => kept (.inr past)
    have held : c'.isOpen = true → c'.wake = some wake := by
      intro fine
      have mirror := mirror (moved.shut fine) (by rw [← moved.armed]; omega)
      rw [← moved.wake, ← moved.armed, armed] at mirror
      rcases mirror with held | past
      · exact held
      · omega
    refine ⟨fit', ?_, ?_⟩
    · intro fine _
      rw [armed]
      exact held fine
    · intro fine _ _
      exact ⟨wake, decision, held fine, boundary, .inl early⟩

structure Kept (c c' : Conn) : Prop where
  clock : c.clock ≤ c'.clock
  wake : c'.wake = c.wake
  armed : c'.heartbeat.armedAt = c.heartbeat.armedAt
  shut : c'.isOpen = true → c.isOpen = true

theorem Kept.trans {a b c : Conn} (first : Kept a b) (second : Kept b c) : Kept a c :=
  ⟨Int.le_trans first.clock second.clock, second.wake.trans first.wake,
    second.armed.trans first.armed, fun fine => first.shut (second.shut fine)⟩

theorem Moved.kept {c' : Conn} (moved : Moved c c') : Kept c c' :=
  ⟨moved.clock, moved.wake, moved.armed, moved.shut⟩

theorem Kept.mirrored {c' : Conn} (kept : Kept c c') (mirror : Mirrored c now) : Mirrored c' now := by
  intro fine armed
  rw [kept.wake, kept.armed]
  exact mirror (kept.shut fine) (kept.armed ▸ armed)

/-- One step of sending the Ping: the connection stays fit, the timer as it is. -/
structure Sends (c c' : Conn) : Prop where
  fit : Fit c → Fit c'
  kept : Kept c c'
  next : c'.heartbeat.nextPingAt = c.heartbeat.nextPingAt

theorem Sends.trans {a b c : Conn} (first : Sends a b) (second : Sends b c) : Sends a c :=
  ⟨fun fit => second.fit (first.fit fit), first.kept.trans second.kept, second.next.trans first.next⟩

theorem Moved.sends {c' : Conn} (moved : Moved c c') : Sends c c' :=
  ⟨moved.fit, moved.kept, moved.next⟩

theorem sends_heartbeat {h : Heartbeat} (armed : h.armedAt = c.heartbeat.armedAt)
    (next : h.nextPingAt = c.heartbeat.nextPingAt)
    (begun : c.heartbeat.nextPingAt = 0 → c.heartbeat.pingOutstanding = false →
      h.pingOutstanding = false)
    (fit : Fit c → (h.pingOutstanding = true → 0 < h.pingQueuedAt ∧ h.pingQueuedAt ≤ c.clock) ∧
      (0 ≤ h.sendStalledAt ∧ h.sendStalledAt ≤ c.clock) ∧ 0 ≤ h.pingSentAt) :
    Sends c { c with heartbeat := h } where
  fit := fun good =>
    ⟨good.clock, (fit good).1, (fit good).2.1, (fit good).2.2,
      next ▸ good.next, fun none =>
        have before := good.begun (next ▸ none)
        ⟨armed.trans before.1, begun (next ▸ none) before.2⟩⟩
  kept := ⟨Int.le_refl _, rfl, armed, id⟩
  next := next

theorem sends_begin (c : Conn) (nonce : Nat) (some : 0 < now) (past : now ≤ c.clock)
    (begun : c.heartbeat.nextPingAt ≠ 0) :
    Sends c { c with heartbeat := (c.heartbeat.beginPing now nonce).1 } := by
  unfold Heartbeat.beginPing
  split
  · exact (Moved.refl c).sends
  · apply sends_heartbeat
    · rfl
    · rfl
    · exact fun none => absurd none begun
    · intro fit
      have := fit.stalled
      refine ⟨fun _ => ?_, fit.stalled, Int.le_refl _⟩
      dsimp only
      split <;> omega

theorem sends_cancel {nonce : Nat} :
    Sends c { c with heartbeat := c.heartbeat.cancelPing nonce } := by
  unfold Heartbeat.cancelPing
  split
  · exact sends_heartbeat rfl rfl (fun _ _ => rfl) fun fit => ⟨nofun, fit.stalled, Int.le_refl _⟩
  · exact (Moved.refl c).sends

theorem sends_stall (some : 0 < now) (past : now ≤ c.clock) :
    Sends c { c with heartbeat := c.heartbeat.noteSendStall now } := by
  unfold Heartbeat.noteSendStall
  split
  · exact sends_heartbeat rfl rfl (fun _ => id) fun fit =>
      ⟨fit.queued, ⟨Int.le_of_lt some, past⟩, fit.sent⟩
  · exact (Moved.refl c).sends

theorem sends_writePing (env : Meets) (c : Conn) : Sends c (c.writePing env).1 := by
  have marked : ∀ accepted, Sends c
      { c with heartbeat := c.heartbeat.markPingTarget env.nonce accepted } := by
    intro accepted
    unfold Heartbeat.markPingTarget
    split
    · exact sends_heartbeat rfl rfl (fun _ => id) fun fit => ⟨fit.queued, fit.stalled, fit.sent⟩
    · exact (Moved.refl c).sends
  have followed : ∀ (c : Conn) receipt, Sends c
      { c with heartbeat := c.heartbeat.setPingReceipt receipt } := fun _ _ =>
    sends_heartbeat rfl rfl (fun _ => id) fun fit => ⟨fit.queued, fit.stalled, fit.sent⟩
  unfold Conn.writePing
  cases env.tracking with
  | position accepted => exact (marked accepted).trans (moved_others _ _).sends
  | receipt receipt =>
    cases env.answer with
    | none => exact (moved_others c (env.gap 3)).sends.trans (followed _ receipt)
    | some err => exact (moved_others c (env.gap 3)).sends

theorem sends_ping (env : Meets) (some : 0 < now) (past : now ≤ c.clock) (begun : c.heartbeat.nextPingAt ≠ 0) :
    Sends c (c.sendHeartbeatPing env now).1 := by
  have still := (Moved.refl c).sends
  have waited := moved_others c (env.gap 2)
  unfold Conn.sendHeartbeatPing
  split
  · exact still
  split
  · exact still
  dsimp only
  split
  · exact waited.sends
  have began := sends_begin (c.others (env.gap 2)) env.nonce some
    (Int.le_trans past waited.clock) (by rw [waited.next]; exact begun)
  generalize begin : (c.others (env.gap 2)).heartbeat.beginPing now env.nonce = answer at began
  obtain ⟨h, accepted⟩ := answer
  cases accepted with
  | false => exact waited.sends
  | true =>
    have wrote := sends_writePing env { c.others (env.gap 2) with heartbeat := h }
    dsimp only
    generalize Conn.writePing env { c.others (env.gap 2) with heartbeat := h } = written at wrote ⊢
    obtain ⟨written, err⟩ := written
    have sent := (waited.sends.trans (began.trans wrote)).trans (moved_others written (env.gap 4)).sends
    cases err with
    | none => exact sent
    | some err => exact sent.trans sends_cancel

theorem pingWhenDue_spec (cfg : Timing) (env : Meets) (fit : Fit c) (some : 0 < now) (past : now ≤ c.clock)
    (begun : c.heartbeat.nextPingAt ≠ 0) :
    Fit (c.pingWhenDue cfg env now).1 ∧ Kept c (c.pingWhenDue cfg env now).1 ∧
      ((c.pingWhenDue cfg env now).2 = true → (c.pingWhenDue cfg env now).1.isOpen = false) ∧
      (c.pingWhenDue cfg env now).1.heartbeat.nextPingAt ≠ 0 := by
  have sends := sends_ping env some past begun
  have interval := cfg.interval_pos
  have onward : ∀ c', Sends c c' → Fit (c'.moveOn cfg now) ∧ Kept c (c'.moveOn cfg now) ∧
      (false = true → (c'.moveOn cfg now).isOpen = false) ∧
        (c'.moveOn cfg now).heartbeat.nextPingAt ≠ 0 := by
    intro c' sends
    have good := sends.fit fit
    refine ⟨⟨good.clock, good.queued, good.stalled, good.sent, ?_, ?_⟩, ?_, nofun, ?_⟩
    · simp only [Conn.moveOn]
      omega
    · intro none
      simp only [Conn.moveOn] at none
      omega
    · exact ⟨sends.kept.clock, sends.kept.wake, sends.kept.armed, sends.kept.shut⟩
    · simp only [Conn.moveOn]
      omega
  unfold Conn.pingWhenDue
  split
  · generalize c.sendHeartbeatPing env now = answer at sends
    obtain ⟨c', err⟩ := answer
    split
    · rename_i same
      cases same
      exact onward c' sends
    · rename_i same
      cases same
      exact onward _ (sends.trans (sends_stall some (Int.le_trans past sends.kept.clock)))
    · rename_i same
      cases same
      split
      · have good := sends.fit fit
        have shut : Conn.isOpen { c' with closing := true } = false := by simp [Conn.isOpen]
        refine ⟨⟨good.clock, good.queued, good.stalled, good.sent, good.next, good.begun⟩,
          ⟨sends.kept.clock, sends.kept.wake, sends.kept.armed, ?_⟩, fun _ => shut, ?_⟩
        · intro fine
          rw [shut] at fine
          cases fine
        · rw [sends.next]
          exact begun
      · exact onward c' sends
  · exact ⟨fit, (Moved.refl c).kept, nofun, begun⟩

theorem sends_deferExpiry (c : Conn) (now timeout : Int) (waiting : Bool) :
    Sends c { c with heartbeat := (c.heartbeat.deferExpiry now timeout waiting).1 } := by
  have still := (Moved.refl c).sends
  unfold Heartbeat.deferExpiry
  split
  · exact still
  · split
    · exact still
    · split
      · exact still
      · split
        · exact sends_heartbeat rfl rfl (fun _ => id) fun fit => ⟨fit.queued, fit.stalled, fit.sent⟩
        · exact still

theorem ticked_defer (cfg : Timing) (env : Meets) (now : Int) (waiting : Bool) (fit : Fit c)
    (deferred : (c.heartbeat.deferExpiry now cfg.heartbeatTimeout waiting).2 = true) :
    Ticked cfg env now (Conn.armHeartbeatWake
      { c with heartbeat := (c.heartbeat.deferExpiry now cfg.heartbeatTimeout waiting).1 } env.arm
      (some now)) := by
  obtain ⟨outstanding, sent, deadline, expiry, passed, within, same⟩ := deferExpiry_true _ _ _ _ deferred
  have sends := sends_deferExpiry c now cfg.heartbeatTimeout waiting
  have begun : c.heartbeat.nextPingAt ≠ 0 := fun none => by
    have idle := (fit.begun none).2
    rw [outstanding] at idle
    cases idle
  apply ticked_arm (sends.fit fit)
  · rw [sends.next]
    exact begun
  · intro taken
    rw [taken, same]
    refine ⟨now, deadline, rfl, ?_, .inr ⟨rfl, outstanding, sent, passed, within⟩⟩
    exact (if_neg begun).trans ((if_pos outstanding).trans expiry)

theorem fit_expirePing (now timeout : Int) (fit : Fit c) :
    Fit { c with heartbeat := (c.heartbeat.expirePing now timeout).1, closing := true } := by
  have zero : 0 ≤ (0 : Int) ∧ (0 : Int) ≤ c.clock := ⟨Int.le_refl _, Int.le_of_lt fit.clock⟩
  unfold Heartbeat.expirePing
  split
  · split
    · exact ⟨fit.clock, fit.queued, fit.stalled, fit.sent, fit.next, fit.begun⟩
    · exact ⟨fit.clock, fit.queued, zero, fit.sent, fit.next, fit.begun⟩
  · split
    · exact ⟨fit.clock, fit.queued, fit.stalled, fit.sent, fit.next, fit.begun⟩
    · exact ⟨fit.clock, nofun, zero, Int.le_refl _, fit.next, fun none => ⟨(fit.begun none).1, rfl⟩⟩

theorem ticked_decide (fit : Fit c) (some : 0 < now) (past : now ≤ c.clock) (mirror : Mirrored c now) :
    Ticked cfg env now (c.decideTick cfg env now) := by
  unfold Conn.decideTick
  split
  · rename_i h expired
    have ended := fit_expirePing now cfg.heartbeatTimeout fit
    rw [expired] at ended
    exact ticked_shut ended (by simp [Conn.isOpen])
  · rename_i h kept
    have same := expirePing_false _ _ _ (congrArg Prod.snd kept)
    rw [kept] at same
    obtain rfl : h = c.heartbeat := same
    dsimp only
    split
    · rename_i idle
      exact ⟨fit, fun _ armed => absurd (fit.begun idle).1 armed, fun _ begun => absurd idle begun⟩
    · rename_i begun
      obtain ⟨good, keeps, ended, next⟩ := pingWhenDue_spec cfg env fit some past begun
      generalize c.pingWhenDue cfg env now = answer at good keeps ended next
      obtain ⟨c', final⟩ := answer
      cases final with
      | true => exact ticked_shut good (ended rfl)
      | false => exact ticked_aim good next (keeps.mirrored mirror)

theorem ticked_steady (fit : Fit c) (mirror : Mirrored c now) (steady : c.heartbeat.steady now = true) :
    Ticked cfg env now c := by
  simp only [Heartbeat.steady, Bool.and_eq_true, decide_eq_true_eq, Bool.not_eq_true'] at steady
  obtain ⟨⟨⟨⟨begun, early⟩, armed⟩, stalled⟩, idle⟩ := steady
  have held : c.isOpen = true → c.wake = some c.heartbeat.armedAt := by
    intro fine
    rcases mirror fine (by rw [armed]; exact begun) with held | past
    · exact held
    · omega
  refine ⟨fit, fun fine _ => held fine, fun fine _ _ => ?_⟩
  refine ⟨c.heartbeat.armedAt, c.heartbeat.nextPingAt, held fine, ?_, .inl (Int.le_of_eq armed)⟩
  rw [boundary_idle begun idle]
  simp only [Heartbeat.expiryLocked, idle, stalled, Bool.false_eq_true, if_false, if_true,
    Heartbeat.earlier]

theorem ticked_heartbeat (fit : Fit c) (some : 0 < now) (past : now ≤ c.clock)
    (mirror : Mirrored c now) : Ticked cfg env now (c.heartbeatTick cfg env now) := by
  unfold Conn.heartbeatTick
  split
  · rename_i shut
    exact ticked_shut fit shut
  split
  · rename_i steady
    exact ticked_steady fit mirror steady
  have moved := moved_others c (env.gap 0)
  generalize c.others (env.gap 0) = c' at moved
  have fit' := moved.fit fit
  have sends := sends_deferExpiry c' now cfg.heartbeatTimeout c'.staged
  have deferred := ticked_defer cfg env now c'.staged fit'
  dsimp only
  generalize c'.heartbeat.deferExpiry now cfg.heartbeatTimeout c'.staged = answer at sends deferred
  obtain ⟨h, waits⟩ := answer
  cases waits with
  | true => exact deferred rfl
  | false =>
    have later := moved_others { c' with heartbeat := h } (env.gap 1)
    have kept := (moved.kept.trans sends.kept).trans later.kept
    exact ticked_decide (later.fit (sends.fit fit')) some (Int.le_trans past kept.clock)
      (kept.mirrored mirror)

theorem ticked_timer {unparsed : Bool} (fit : Fit c) (some : 0 < now) (past : now ≤ c.clock)
    (mirror : Mirrored c now) : Ticked cfg env now (c.timerTick cfg env now unparsed) := by
  unfold Conn.timerTick
  split
  · rename_i shut
    exact ticked_shut fit shut
  split
  · have sends := sends_deferExpiry c now cfg.heartbeatTimeout true
    have deferred := ticked_defer cfg env now true fit
    generalize c.heartbeat.deferExpiry now cfg.heartbeatTimeout true = answer at sends deferred
    obtain ⟨h, waits⟩ := answer
    cases waits with
    | true => exact deferred rfl
    | false =>
      exact ticked_heartbeat (sends.fit fit) some (Int.le_trans past sends.kept.clock)
        (sends.kept.mirrored mirror)
  · exact ticked_heartbeat fit some past mirror

end Ticks

section Runs
variable {cfg : Timing} {c : Conn}

structure Settled (c : Conn) : Prop where
  fit : Fit c
  mirror : c.isOpen = true → c.heartbeat.armedAt ≠ 0 → c.wake = some c.heartbeat.armedAt

/-- The event is a tick that meets `env`: a data turn's, or the timer's when it fires. -/
def Ticks (c : Conn) (env : Meets) : Event → Prop
  | .data met => met = env
  | .timer met _ => met = env ∧ ∃ wake, c.wake = some wake ∧ wake ≤ c.clock
  | _ => False

theorem Sends.settled {c' : Conn} (sends : Sends c c') (settled : Settled c) : Settled c' where
  fit := sends.fit settled.fit
  mirror := by
    rw [sends.kept.wake, sends.kept.armed]
    exact fun fine => settled.mirror (sends.kept.shut fine)

theorem settled_begin {env : Meets} (settled : Settled c) : Settled (c.beginHeartbeat cfg env) := by
  have fit := settled.fit
  have := cfg.interval_pos
  have := fit.clock
  unfold Conn.beginHeartbeat Conn.armHeartbeatWake
  split
  · refine ⟨⟨fit.clock, fit.queued, fit.stalled, fit.sent, ?_, ?_⟩, fun _ _ => rfl⟩
    · simp only
      omega
    · simp only
      omega
  · refine ⟨⟨fit.clock, fit.queued, fit.stalled, fit.sent, ?_, ?_⟩, fun _ armed => absurd rfl armed⟩
    · simp only
      omega
    · simp only
      omega

theorem sends_pong {nonce : Nat} :
    Sends c { c with heartbeat := (c.heartbeat.acknowledgePing nonce).1 } := by
  unfold Heartbeat.acknowledgePing
  split
  · exact (Moved.refl c).sends
  · exact sends_heartbeat rfl rfl (fun _ _ => rfl) fun fit =>
      ⟨nofun, ⟨Int.le_refl _, Int.le_of_lt fit.clock⟩, Int.le_refl _⟩

theorem ticked_step (cfg : Timing) (env : Meets) (tick : Event) (settled : Settled c)
    (ticks : Ticks c env tick) : Ticked cfg env c.clock (step cfg c tick) := by
  have fit := settled.fit
  have held : Mirrored c c.clock := fun fine armed => .inl (settled.mirror fine armed)
  cases tick with
  | data met =>
    cases ticks
    exact ticked_heartbeat fit fit.clock (Int.le_refl _) held
  | timer met unparsed =>
    obtain ⟨rfl, wake, armed, due⟩ := ticks
    have fires : (c.wake.any fun wake => decide (wake ≤ c.clock)) = true := by
      rw [armed]
      exact decide_eq_true due
    rw [step, if_pos fires]
    refine ticked_timer (c := { c with wake := none })
      ⟨fit.clock, fit.queued, fit.stalled, fit.sent, fit.next, fit.begun⟩ fit.clock (Int.le_refl _) ?_
    intro fine set
    have same := settled.mirror fine set
    rw [armed] at same
    exact .inr (Option.some.inj same ▸ due)
  | begin _ | pong _ | frame | pause _ | stage _ | other _ => cases ticks

theorem settled_step (settled : Settled c) (event : Event) : Settled (step cfg c event) := by
  have fit := settled.fit
  cases event with
  | begin env => exact settled_begin settled
  | data env =>
    have ticked := ticked_step cfg env (.data env) settled rfl
    exact ⟨ticked.fit, ticked.mirror⟩
  | timer env unparsed =>
    by_cases fires : ∃ wake, c.wake = some wake ∧ wake ≤ c.clock
    · have ticked := ticked_step cfg env (.timer env unparsed) settled
        ⟨rfl, fires⟩
      exact ⟨ticked.fit, ticked.mirror⟩
    · rw [step, if_neg]
      · exact settled
      · intro due
        cases armed : c.wake with
        | none =>
          rw [armed] at due
          cases due
        | some wake =>
          rw [armed] at due
          exact fires ⟨wake, armed, of_decide_eq_true due⟩
  | pong nonce => exact sends_pong.settled settled
  | frame =>
    have counted : Sends c (step cfg c .frame) :=
      sends_heartbeat rfl rfl (fun _ => id) fun fit => ⟨fit.queued, fit.stalled, fit.sent⟩
    exact counted.settled settled
  | pause paused | stage staged =>
    exact ⟨⟨fit.clock, fit.queued, fit.stalled, fit.sent, fit.next, fit.begun⟩, settled.mirror⟩
  | other act => exact (moved_act c act).sends.settled settled

theorem settled_run (settled : Settled c) (events : List Event) : Settled (run cfg c events) := by
  induction events generalizing c with
  | nil => exact settled
  | cons event events ih => exact ih (settled_step settled event)

theorem settled_fresh (start : Nat) : Settled (fresh start) where
  fit := by
    refine ⟨?_, nofun, ⟨Int.le_refl _, ?_⟩, Int.le_refl _, Int.le_refl _, fun _ => ⟨rfl, rfl⟩⟩
    · simp only [fresh]
      omega
    · simp only [fresh]
      omega
  mirror := fun _ armed => absurd rfl armed

/-- After every tick of every run that leaves the connection open, its heartbeat begun and
its arm taken, the wake is no later than the next decision; or the tick put off a sent
Ping's expiry that had passed less than a timeout ago, and the wake is the tick's own
moment. -/
theorem wake_timely (cfg : Timing) (start : Nat) (events : List Event) (tick : Event) (env : Meets)
    (ticks : Ticks (run cfg (fresh start) events) env tick) (taken : env.arm = .taken)
    (fine : (step cfg (run cfg (fresh start) events) tick).isOpen = true)
    (begun : (step cfg (run cfg (fresh start) events) tick).heartbeat.nextPingAt ≠ 0) :
    Timely cfg (run cfg (fresh start) events).clock (step cfg (run cfg (fresh start) events) tick) :=
  (ticked_step cfg env tick (settled_run (settled_fresh start) events) ticks).timely fine begun taken

end Runs

section Deferred

def tenByFive : Timing := ⟨10, 5, ten_pos, by decide⟩

/-- The Ping is taken with its last byte at position 6, and every arm. -/
def smooth : Meets := ⟨fun _ => [], false, 1, .position 6, none, .taken⟩

/-- A Ping is sent at 11 and its deadline, 16, passes with a frame parsed meanwhile. -/
def slowPong : List Event :=
  [.begin smooth, .other (.elapse 10), .data smooth, .other (.transportSent 6), .frame,
    .other (.elapse 6)]

theorem wake_timely_ping :
    Timely tenByFive (run tenByFive (fresh 0) [.begin smooth, .other (.elapse 10)]).clock
      (step tenByFive (run tenByFive (fresh 0) [.begin smooth, .other (.elapse 10)])
        (.timer smooth false)) :=
  wake_timely tenByFive 0 _ _ smooth ⟨rfl, 11, by decide, by decide⟩ rfl (by decide) (by decide)

/-- The tick at 17 waits for the Pong and wakes at 17, past the Ping's expiry. -/
theorem deferred_wake_late :
    ∃ cfg start events env, Ticks (run cfg (fresh start) events) env (.data env) ∧
      env.arm = .taken ∧ (step cfg (run cfg (fresh start) events) (.data env)).isOpen = true ∧
      ∃ wake decision, (step cfg (run cfg (fresh start) events) (.data env)).wake = some wake ∧
        (step cfg (run cfg (fresh start) events) (.data env)).heartbeat.heartbeatBoundary
          cfg.heartbeatTimeout = some decision ∧ decision < wake :=
  ⟨tenByFive, 0, slowPong, smooth, rfl, rfl, by decide, 17, 16, by decide, by decide, by decide⟩

end Deferred

end UwsHeartbeatWake
