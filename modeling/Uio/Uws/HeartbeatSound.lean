import Uio.Uws.HeartbeatRuns

/-!
What holds of the heartbeat in every run. The senders hold `writes.mu` and the ticks the
turn, so what a Ping's own send knows of the Ping, and a tick of its refusal, is theirs
until they let go; what is accepted is never below what entered, and what is retired never
above what was reported.
-/
namespace UwsHeartbeatSound
open Interleaving Monitor UwsHeartbeat UwsHeartbeatRuns
variable {cfg : Config} {s s' : State} {a : Section} {more : List Section}
variable (f : Frame) (k : Sender) (direct : Bool) (n : Next) (after : After) {b : Section}
  {p : Pool State Section} {now : Int}

section Locks

theorem mu_grip (a : Section) : mu.grip a = a.by.isSome.toNat := rfl

theorem mu_taken (s : State) : mu.taken s = s.mu.toNat := rfl

theorem turn_grip (a : Section) : turn.grip a = a.ticks.toNat := rfl

theorem turn_taken (s : State) : turn.taken s = s.turn.toNat := rfl

theorem markTarget_locks (s : State) (f : Frame) (k : Sender) (direct : Bool) :
    (s.markTarget f k direct).mu = s.mu ∧ (s.markTarget f k direct).turn = s.turn := by
  unfold State.markTarget
  split <;> exact ⟨rfl, rfl⟩

theorem mu_section : mu.grip n.section = 1 := by rw [mu_grip, by_section]; rfl

theorem mu_refused : mu.grip n.refused = 1 := by rw [mu_grip, by_refused]; rfl

theorem mu_after : mu.grip after.section = 1 := by rw [mu_grip, by_after]; rfl

theorem turn_section : turn.grip n.section = n.by.ticks.toNat := by
  rw [turn_grip, ticks_section]

theorem turn_refused : turn.grip n.refused = n.by.ticks.toNat := by
  rw [turn_grip, ticks_refused]

theorem turn_after : turn.grip after.section = after.by.ticks.toNat := by
  rw [turn_grip, ticks_after]

theorem grip_on (m : Mutex State Section) (same : m.grip b = m.grip a)
    (kept : m.locked s' = m.locked s) :
    m.grip a + m.taken s' = m.taken s + ([b].map m.grip).sum := by
  simp only [sum_map_cons, sum_map_nil, same, Mutex.taken, kept]
  omega

theorem mu_step (step : Step cfg s a s' more) (held : mu.grip a ≤ mu.taken s) :
    mu.grip a + mu.taken s' = mu.taken s + (more.map mu.grip).sum := by
  have most := Bool.toNat_le s.mu
  cases step with
  | send step =>
    cases step
    case send f flush free => rw [mu_taken s, free]; rfl
    case releaseApp | releaseBeat => exact Nat.le_antisymm held most
    case target f k => exact grip_on mu rfl (markTarget_locks s f k false).1
    case targetDirect f k => exact grip_on mu rfl (markTarget_locks s f k true).1
    case empty n _ | handed n => exact grip_on mu (mu_section n) rfl
    case uncount after => exact grip_on mu (mu_after after) rfl
    case failStream n _ => exact grip_on mu (mu_refused n) rfl
    all_goals exact grip_on mu rfl rfl
  | tick step =>
    cases step
    case lockShut free | lockHeld free | lockBegins free _ => rw [mu_taken s, free]; rfl
    all_goals exact Nat.add_comm _ _
  | other step => cases step <;> exact Nat.add_comm _ _

theorem turn_step (step : Step cfg s a s' more) (held : turn.grip a ≤ turn.taken s) :
    turn.grip a + turn.taken s' = turn.taken s + (more.map turn.grip).sum := by
  have most := Bool.toNat_le s.turn
  cases step with
  | send step =>
    cases step
    case target f k => exact grip_on turn rfl (markTarget_locks s f k false).2
    case targetDirect f k => exact grip_on turn rfl (markTarget_locks s f k true).2
    case empty n _ | handed n => exact grip_on turn (turn_section n) rfl
    case uncount after => exact grip_on turn (turn_after after) rfl
    case failStream n _ => exact grip_on turn (turn_refused n) rfl
    case releaseApp => exact Nat.add_comm _ _
    all_goals exact grip_on turn rfl rfl
  | tick step =>
    cases step
    case timerShut free _ | timerDefers free | timerEnters free | tick free =>
      rw [turn_taken s, free]; rfl
    case endTick => exact Nat.le_antisymm held most
    all_goals exact Nat.add_comm _ _
  | other step => cases step <;> exact Nat.add_comm _ _

theorem mu_handed : mu.Handed (program cfg) := by
  intro c a s ready held
  exact mu_step (exec_step cfg c a s ready) held

theorem turn_handed : turn.Handed (program cfg) := by
  intro c a s ready held
  exact turn_step (exec_step cfg c a s ready) held

theorem mu_calls (a : Section) (entry : (program cfg).entry a = true) : mu.holds a = false := by
  cases a <;> first | rfl | cases entry

theorem turn_calls (a : Section) (entry : (program cfg).entry a = true) : turn.holds a = false := by
  cases a <;> first | rfl | cases entry

end Locks

section Books

def unretired : Section → Nat
  | .reduce bytes | .retire bytes => bytes
  | _ => 0

/-- Bytes counted as accepted that are neither in the batch nor in the transport. -/
def between : Section → Nat
  | .pend bytes _ | .hand bytes _ | .rollback bytes _ | .uncount bytes _ => bytes
  | .markTarget f _ true | .write f _ => f.size
  | _ => 0

@[simp] theorem unretired_section : unretired n.section = 0 := by cases n <;> rfl

@[simp] theorem unretired_refused : unretired n.refused = 0 := by cases n <;> rfl

@[simp] theorem unretired_after : unretired after.section = 0 := by
  cases after <;> rfl

@[simp] theorem between_section : between n.section = 0 := by cases n <;> rfl

@[simp] theorem between_refused : between n.refused = 0 := by cases n <;> rfl

@[simp] theorem between_after : between after.section = 0 := by
  cases after <;> rfl

theorem markTarget_books (s : State) (f : Frame) (k : Sender) (direct : Bool) :
    (s.markTarget f k direct).outboundAccepted = s.outboundAccepted ∧
      (s.markTarget f k direct).outboundRetired = s.outboundRetired ∧
      (s.markTarget f k direct).entered = s.entered ∧ (s.markTarget f k direct).batch = s.batch ∧
      (s.markTarget f k direct).reported = s.reported := by
  unfold State.markTarget
  split <;> exact ⟨rfl, rfl, rfl, rfl, rfl⟩

theorem retired_step (step : Step cfg s a s' more) :
    s'.outboundRetired + (more.map unretired).sum + s.reported ≤
      s.outboundRetired + unretired a + s'.reported ∧
      s.reported ≤ s'.reported ∧ (s.reported ≤ s.entered → s'.reported ≤ s'.entered) := by
  cases step with
  | send step =>
    cases step
    case target f k =>
      have books := markTarget_books s f k false
      simp only [sum_map_cons, sum_map_nil, unretired]
      omega
    case targetDirect f k =>
      have books := markTarget_books s f k true
      simp only [sum_map_cons, sum_map_nil, unretired]
      omega
    all_goals
      simp only [sum_map_cons, sum_map_nil, unretired_section, unretired_refused, unretired_after]
      simp only [unretired]
      omega
  | tick step | other step =>
    cases step <;>
      simp only [sum_map_cons, sum_map_nil, unretired] <;> omega

theorem accepted_step (step : Step cfg s a s' more) (some : between a ≤ s.outboundAccepted) :
    s'.entered + s'.batch + (more.map between).sum + s.outboundAccepted ≤
      s.entered + s.batch + between a + s'.outboundAccepted ∧ s.entered ≤ s'.entered := by
  cases step with
  | send step =>
    cases step
    case target f k =>
      have books := markTarget_books s f k false
      simp only [sum_map_cons, sum_map_nil, between]
      omega
    case targetDirect f k =>
      have books := markTarget_books s f k true
      simp only [sum_map_cons, sum_map_nil, between]
      omega
    all_goals
      simp only [sum_map_cons, sum_map_nil, between_section, between_refused, between_after]
      simp only [between] at some ⊢
      omega
  | tick step | other step =>
    cases step <;>
      simp only [sum_map_cons, sum_map_nil, between] <;> omega

structure Counted (s : State) (owing : Multiset Section) : Prop where
  retired : s.outboundRetired + weigh unretired owing ≤ s.reported
  reported : s.reported ≤ s.entered
  marks : ∀ retired, Section.markPingSent retired ∈ owing → retired ≤ s.reported
  accepted : s.entered + s.batch + weigh between owing ≤ s.outboundAccepted

theorem marks_pushed (step : Step cfg s a s' more) {retired : Nat}
    (pushed : Section.markPingSent retired ∈ more) :
    ∃ bytes, a = .retire bytes ∧ retired = s.outboundRetired + bytes := by
  have section_ne : ∀ n : Next, Section.markPingSent retired ≠ n.section := by
    intro n
    cases n <;> nofun
  have refused_ne : ∀ n : Next, Section.markPingSent retired ≠ n.refused := by
    intro n
    cases n <;> nofun
  have after_ne : ∀ after : After, Section.markPingSent retired ≠ after.section := by
    intro after
    cases after <;> nofun
  cases step with
  | send step =>
    cases step
    case empty n _ | handed n => exact absurd (List.mem_singleton.mp pushed) (section_ne n)
    case uncount after => exact absurd (List.mem_singleton.mp pushed) (after_ne after)
    case failStream n _ => exact absurd (List.mem_singleton.mp pushed) (refused_ne n)
    case releaseApp => cases pushed
    all_goals cases List.mem_singleton.mp pushed
  | tick step =>
    cases step
    case begin | endTick => cases pushed
    all_goals cases List.mem_singleton.mp pushed
  | other step =>
    cases step
    case retire bytes =>
      cases List.mem_singleton.mp pushed
      exact ⟨bytes, rfl, rfl⟩
    case transportSent | reduce => cases List.mem_singleton.mp pushed
    all_goals cases pushed

theorem counted_step {others : Multiset Section} (step : Step cfg s a s' more)
    (held : Counted s (a ::ₘ others)) : Counted s' (↑more + others) := by
  obtain ⟨retired, reported, marks, accepted⟩ := held
  simp only [weigh_cons] at retired accepted
  have one := retired_step step
  have two := accepted_step step (by omega)
  refine ⟨?_, one.2.2 reported, ?_, ?_⟩
  · simp only [weigh_add, weigh_coe]
    omega
  · intro passed member
    rcases Multiset.mem_add.mp member with mine | other
    · obtain ⟨bytes, rfl, rfl⟩ := marks_pushed step (Multiset.mem_coe.mp mine)
      simp only [unretired] at retired
      omega
    · have before := marks passed (Multiset.mem_cons_of_mem other)
      omega
  · simp only [weigh_add, weigh_coe]
    omega

theorem counted (run : Reachable (program cfg) start p) : Counted p.state (owed p) := by
  refine owed_invariant Counted ?_ ?_ ?_ run
  · exact ⟨le_rfl, le_rfl, nofun, le_rfl⟩
  · intro s others a entry held
    obtain ⟨retired, reported, marks, accepted⟩ := held
    have idle : unretired a = 0 ∧ between a = 0 := by
      cases a <;> first | exact ⟨rfl, rfl⟩ | cases entry
    refine ⟨?_, reported, ?_, ?_⟩
    · rw [weigh_cons, idle.1, Nat.zero_add]
      exact retired
    · intro passed member
      rcases Multiset.mem_cons.mp member with rfl | other
      · cases entry
      · exact marks passed other
    · rw [weigh_cons, idle.2, Nat.zero_add]
      exact accepted
  · intro s others a c ready _ held
    exact counted_step (exec_step cfg c a s ready) held

end Books

section Moments

def senderMoment : Sender → Option Int
  | .app _ => none
  | .beat now _ => some now

def moment : Section → Option Int
  | .enter now | .deferExpiry now _ | .expirePing now | .expireHeartbeat now | .due now
  | .openPing now | .lockPing now _ | .pinged now _ | .noteSendStall now | .moveOn now | .arm now
  | .endTick now => some now
  | a => a.by.bind senderMoment

def decided : Section → Bool
  | .enter _ | .deferExpiry _ _ | .expirePing _ => false
  | _ => true

/-- A tick at `now` that does not end the connection finds a sent Ping sent less than two
timeouts before. -/
def Within (cfg : Config) (s : State) (now : Int) : Prop :=
  s.isOpen = true → s.heartbeat.pingOutstanding = true → s.heartbeat.pingSentAt ≠ 0 →
    now < s.heartbeat.pingSentAt + 2 * cfg.heartbeatTimeout

structure Clocked (cfg : Config) (s : State) : Prop where
  clock : 0 < s.clock
  ticked : s.ticked ≤ s.clock
  within : Within cfg s s.ticked

def Carries (cfg : Config) (s : State) (a : Section) : Prop :=
  ∀ now, moment a = some now → 0 < now ∧ now ≤ s.clock ∧ (decided a = true → Within cfg s now)

/-- A Ping that a section leaves sent was sent before, or is marked at the clock. -/
def SentFrom (s s' : State) : Prop :=
  s'.heartbeat.pingOutstanding = true → s'.heartbeat.pingSentAt ≠ 0 →
    s'.heartbeat.pingSentAt = s.clock ∨
      s.heartbeat.pingOutstanding = true ∧ s.heartbeat.pingSentAt = s'.heartbeat.pingSentAt

theorem sentFrom_same (outstanding : s'.heartbeat.pingOutstanding = s.heartbeat.pingOutstanding)
    (sent : s'.heartbeat.pingSentAt = s.heartbeat.pingSentAt) : SentFrom s s' :=
  fun set _ => .inr ⟨outstanding ▸ set, sent.symm⟩

theorem markTarget_sent (s : State) (f : Frame) (k : Sender) (direct : Bool) :
    (s.markTarget f k direct).heartbeat.pingOutstanding = s.heartbeat.pingOutstanding ∧
      (s.markTarget f k direct).heartbeat.pingSentAt = s.heartbeat.pingSentAt ∧
      (s.markTarget f k direct).clock = s.clock ∧ (s.markTarget f k direct).isOpen = s.isOpen ∧
      (s.markTarget f k direct).ticked = s.ticked := by
  unfold State.markTarget Heartbeat.markPingTarget
  split
  · split <;> exact ⟨rfl, rfl, rfl, rfl, rfl⟩
  · split <;> exact ⟨rfl, rfl, rfl, rfl, rfl⟩
  · exact ⟨rfl, rfl, rfl, rfl, rfl⟩

theorem sentFrom_markTarget (s : State) (f : Frame) (k : Sender) (direct : Bool) :
    SentFrom s (s.markTarget f k direct) :=
  sentFrom_same (markTarget_sent s f k direct).1 (markTarget_sent s f k direct).2.1

theorem sentFrom_step (step : Step cfg s a s' more) : SentFrom s s' := by
  cases step with
  | send step =>
    cases step
    case target f k => exact sentFrom_markTarget s f k false
    case targetDirect f k => exact sentFrom_markTarget s f k true
    case failBeat now nonce res =>
      intro outstanding sent
      simp only [Heartbeat.cancelPing] at outstanding sent ⊢
      split at outstanding
      · cases outstanding
      · rename_i other
        rw [if_neg other] at sent ⊢
        exact .inr ⟨outstanding, rfl⟩
    all_goals exact sentFrom_same rfl rfl
  | tick step =>
    cases step
    case expired h idle none late =>
      intro outstanding
      rw [idle] at outstanding
      cases outstanding
    case lockBegins now nonce free idle =>
      intro _ sent
      simp only [Heartbeat.beginPing, idle, Bool.false_eq_true, if_false] at sent
      exact absurd rfl sent
    case noteSendStall now =>
      simp only [Heartbeat.noteSendStall]
      split <;> exact sentFrom_same rfl rfl
    all_goals exact sentFrom_same rfl rfl
  | other step =>
    cases step
    case markPingSent => exact fun _ _ => .inl rfl
    case pong => exact fun outstanding => by cases outstanding
    all_goals exact sentFrom_same rfl rfl

theorem isOpen_shut {s s' : State} (closed : s.closed = true → s'.closed = true)
    (closing : s.closing = true → s'.closing = true) (fine : s'.isOpen = true) :
    s.isOpen = true := by
  simp only [State.isOpen, Bool.and_eq_true, Bool.not_eq_true'] at fine ⊢
  constructor
  · cases shut : s.closed with
    | false => rfl
    | true => rw [closed shut] at fine; exact fine.1
  · cases shut : s.closing with
    | false => rfl
    | true => rw [closing shut] at fine; exact fine.2

theorem clock_step (step : Step cfg s a s' more) :
    s.clock ≤ s'.clock ∧ (s'.isOpen = true → s.isOpen = true) := by
  cases step with
  | send step =>
    cases step
    case target f k =>
      have same := markTarget_sent s f k false
      exact ⟨Int.le_of_eq same.2.2.1.symm, fun fine => same.2.2.2.1 ▸ fine⟩
    case targetDirect f k =>
      have same := markTarget_sent s f k true
      exact ⟨Int.le_of_eq same.2.2.1.symm, fun fine => same.2.2.2.1 ▸ fine⟩
    case failStream n closing =>
      exact ⟨Int.le_refl _, isOpen_shut id fun set => by rw [set]; rfl⟩
    all_goals exact ⟨Int.le_refl _, id⟩
  | tick step =>
    cases step
    case expireHeartbeat | pingedAborts => exact ⟨Int.le_refl _, isOpen_shut id fun _ => rfl⟩
    all_goals exact ⟨Int.le_refl _, id⟩
  | other step =>
    cases step
    case elapse nanos => exact ⟨by simp only; omega, id⟩
    case close => exact ⟨Int.le_refl _, isOpen_shut (fun _ => rfl) id⟩
    case closing => exact ⟨Int.le_refl _, isOpen_shut id fun _ => rfl⟩
    all_goals exact ⟨Int.le_refl _, id⟩

theorem within_step (step : Step cfg s a s' more) (past : now ≤ s.clock)
    (within : Within cfg s now) : Within cfg s' now := by
  intro fine outstanding sent
  have positive := cfg.timeout_pos
  rcases sentFrom_step step outstanding sent with marked | ⟨before, same⟩
  · rw [marked]
    omega
  · rw [← same]
    exact within ((clock_step step).2 fine) before (same ▸ sent)

theorem moment_section : moment n.section = senderMoment n.by := by cases n <;> rfl

theorem moment_refused : moment n.refused = senderMoment n.by := by cases n <;> rfl

theorem moment_after : moment after.section = senderMoment after.by := by
  cases after <;> rfl

theorem carries_on (step : Step cfg s a s' more) (carries : Carries cfg s a)
    (same : moment b = moment a) (behind : decided a = true) : Carries cfg s' b := by
  intro now at_now
  obtain ⟨positive, past, within⟩ := carries now (same ▸ at_now)
  exact ⟨positive, Int.le_trans past (clock_step step).1, fun _ => within_step step past (within behind)⟩

theorem carries_none (none : moment b = none) : Carries cfg s b := by
  intro now at_now
  rw [none] at at_now
  cases at_now

theorem carries_stable (step : Step cfg s a s' more) (carries : Carries cfg s b) :
    Carries cfg s' b := by
  intro now at_now
  obtain ⟨positive, past, within⟩ := carries now at_now
  exact ⟨positive, Int.le_trans past (clock_step step).1,
    fun behind => within_step step past (within behind)⟩

theorem carries_decides (step : Step cfg s a s' more) (carries : Carries cfg s a)
    (same : moment b = moment a)
    (within : ∀ now, moment a = some now → decided b = true → Within cfg s' now) :
    Carries cfg s' b := by
  intro now at_now
  rw [same] at at_now
  obtain ⟨positive, past, -⟩ := carries now at_now
  exact ⟨positive, Int.le_trans past (clock_step step).1, within now at_now⟩

theorem carries_first (step : Step cfg s a s' more) (clocked : Clocked cfg s)
    (same : moment b = some s.clock) (within : decided b = true → Within cfg s' s.clock) :
    Carries cfg s' b := by
  intro now at_now
  obtain rfl : s.clock = now := Option.some.inj (same.symm.trans at_now)
  exact ⟨clocked.clock, (clock_step step).1, within⟩

theorem carries_send (step : SendStep s a s' more) (carries : Carries cfg s a) :
    ∀ b ∈ more, Carries cfg s' b := by
  have whole : Step cfg s a s' more := .send step
  intro b pushed
  cases step
  case send => exact List.mem_singleton.mp pushed ▸ carries_none rfl
  case empty n _ | handed n =>
    exact List.mem_singleton.mp pushed ▸ carries_on whole carries (moment_section n) rfl
  case uncount after =>
    exact List.mem_singleton.mp pushed ▸ carries_on whole carries (moment_after after) rfl
  case failStream n _ =>
    exact List.mem_singleton.mp pushed ▸ carries_on whole carries (moment_refused n) rfl
  case releaseApp => cases pushed
  all_goals exact List.mem_singleton.mp pushed ▸ carries_on whole carries rfl rfl

theorem within_idle (idle : s.heartbeat.pingOutstanding = false) : Within cfg s now := by
  intro _ outstanding
  rw [idle] at outstanding
  cases outstanding

theorem within_shut (shut : s.isOpen = false) : Within cfg s now := by
  intro fine
  rw [shut] at fine
  cases fine

theorem carries_tick (step : TickStep cfg s a s' more) (clocked : Clocked cfg s)
    (carries : Carries cfg s a) : ∀ b ∈ more, Carries cfg s' b := by
  have whole : Step cfg s a s' more := .tick step
  have timeout := cfg.timeout_pos
  intro b pushed
  cases step
  case begin | endTick => cases pushed
  case timerShut free shut =>
    exact List.mem_singleton.mp pushed ▸ carries_first whole clocked rfl fun _ => within_shut shut
  case timerDefers | timerEnters | tick =>
    exact List.mem_singleton.mp pushed ▸ carries_first whole clocked rfl nofun
  case enterShut shut =>
    exact List.mem_singleton.mp pushed ▸ carries_decides whole carries rfl fun _ _ _ => within_shut shut
  case enterSteady idle | expired h idle none late =>
    exact List.mem_singleton.mp pushed ▸ carries_decides whole carries rfl fun _ _ _ => within_idle idle
  case enter | again | decides =>
    exact List.mem_singleton.mp pushed ▸ carries_decides whole carries rfl fun _ _ => nofun
  case defers now timer within =>
    refine List.mem_singleton.mp pushed ▸ carries_decides whole carries rfl ?_
    intro moment at_now _ _ _ _
    obtain rfl : now = moment := Option.some.inj at_now
    exact within
  case unexpired now early =>
    refine List.mem_singleton.mp pushed ▸ carries_decides whole carries rfl ?_
    intro moment at_now _ _ outstanding sent
    obtain rfl : now = moment := Option.some.inj at_now
    have soon := early outstanding sent
    omega
  all_goals exact List.mem_singleton.mp pushed ▸ carries_on whole carries rfl rfl

theorem carries_other (step : OtherStep s a s' more) : ∀ b ∈ more, Carries cfg s' b := by
  intro b pushed
  cases step
  case transportSent | reduce | retire => exact List.mem_singleton.mp pushed ▸ carries_none rfl
  all_goals cases pushed

theorem ticked_step (step : Step cfg s a s' more) :
    s'.ticked = s.ticked ∨ ∃ now, a = .endTick now ∧ s'.ticked = max s.ticked now := by
  cases step with
  | send step =>
    cases step
    case target f k => exact .inl (markTarget_sent s f k false).2.2.2.2
    case targetDirect f k => exact .inl (markTarget_sent s f k true).2.2.2.2
    all_goals exact .inl rfl
  | tick step =>
    cases step
    case endTick now => exact .inr ⟨now, rfl, rfl⟩
    all_goals exact .inl rfl
  | other step => cases step <;> exact .inl rfl

theorem clocked_step (step : Step cfg s a s' more) (clocked : Clocked cfg s)
    (carries : Carries cfg s a) : Clocked cfg s' := by
  have later := (clock_step step).1
  have clock := clocked.clock
  have ticked := clocked.ticked
  have kept := within_step step ticked clocked.within
  refine ⟨by omega, ?_, ?_⟩
  · rcases ticked_step step with same | ⟨now, rfl, same⟩
    · omega
    · have past := (carries now rfl).2.1
      omega
  · rcases ticked_step step with same | ⟨now, rfl, same⟩
    · rw [same]
      exact kept
    · obtain ⟨-, past, within⟩ := carries now rfl
      have mine := within_step step past (within rfl)
      rw [same]
      intro fine outstanding sent
      exact Int.max_lt.mpr ⟨kept fine outstanding sent, mine fine outstanding sent⟩

theorem clocked (run : Reachable (program cfg) start p) :
    Clocked cfg p.state ∧ ∀ a ∈ owed p, Carries cfg p.state a := by
  refine owed_carries (Clocked cfg) (Carries cfg) ?_ (by rintro _ ⟨⟩) ?_ ?_ run
  · exact ⟨by decide, by decide, fun _ outstanding => by cases outstanding⟩
  · intro s a _ entry
    cases a <;> first | exact carries_none rfl | cases entry
  · intro s a c ready _ clocked carries
    have step := exec_step cfg c a s ready
    refine ⟨clocked_step step clocked carries, fun b => carries_stable step, ?_⟩
    cases step with
    | send step => exact carries_send step carries
    | tick step => exact carries_tick step clocked carries
    | other step => exact carries_other step

end Moments

section Pings

structure PingFrom (s s' : State) : Prop where
  before : s'.heartbeat.pingOutstanding = true → s.heartbeat.pingOutstanding = true
  nonce : s'.heartbeat.pingOutstanding = true → s'.heartbeat.pingNonce = s.heartbeat.pingNonce
  queued : s'.heartbeat.pingOutstanding = true →
    s'.heartbeat.pingQueuedAt = s.heartbeat.pingQueuedAt

theorem pingFrom_same (outstanding : s'.heartbeat.pingOutstanding = s.heartbeat.pingOutstanding)
    (nonce : s'.heartbeat.pingNonce = s.heartbeat.pingNonce)
    (queued : s'.heartbeat.pingQueuedAt = s.heartbeat.pingQueuedAt) : PingFrom s s' :=
  ⟨fun set => outstanding ▸ set, fun _ => nonce, fun _ => queued⟩

theorem pingFrom_idle (idle : s'.heartbeat.pingOutstanding = false) : PingFrom s s' := by
  constructor
  all_goals
    intro outstanding
    rw [idle] at outstanding
    cases outstanding

theorem pingFrom_markTarget (s : State) (f : Frame) (k : Sender) (direct : Bool) :
    PingFrom s (s.markTarget f k direct) := by
  unfold State.markTarget Heartbeat.markPingTarget
  split
  · split <;> exact pingFrom_same rfl rfl rfl
  · split <;> exact pingFrom_same rfl rfl rfl
  · exact pingFrom_same rfl rfl rfl

theorem pingFrom_send (step : SendStep s a s' more) : PingFrom s s' := by
  cases step
  case target f k => exact pingFrom_markTarget s f k false
  case targetDirect f k => exact pingFrom_markTarget s f k true
  case failBeat now nonce res =>
    simp only [Heartbeat.cancelPing]
    split
    · exact pingFrom_idle rfl
    · exact pingFrom_same rfl rfl rfl
  all_goals exact pingFrom_same rfl rfl rfl

theorem pingFrom_step (step : Step cfg s a s' more)
    (other : ∀ now nonce, a ≠ .lockPing now nonce) : PingFrom s s' := by
  cases step with
  | send step => exact pingFrom_send step
  | tick step =>
    cases step
    case expired h idle none late => exact pingFrom_idle idle
    case lockBegins now nonce free idle => exact absurd rfl (other now nonce)
    case noteSendStall now =>
      simp only [Heartbeat.noteSendStall]
      split <;> exact pingFrom_same rfl rfl rfl
    all_goals exact pingFrom_same rfl rfl rfl
  | other step =>
    cases step
    case pong => exact pingFrom_idle rfl
    all_goals exact pingFrom_same rfl rfl rfl

def nextRes : Next → Option Result
  | .release _ res => some res
  | _ => none

def afterRes : After → Option Result
  | .fail _ _ => none
  | .batch n => nextRes n

def resultOf : Section → Option Result
  | .unlock _ res | .release _ res | .pinged _ res => some res
  | .noteSendStall _ => some .backpressure
  | .flushBatch n | .pend _ n | .hand _ n | .failStream n => nextRes n
  | .rollback _ after | .uncount _ after => afterRes after
  | _ => none

/-- A tick that sends a Ping knows it for its own, and after a refusal that it is gone. -/
structure Turns (s : State) (a : Section) : Prop where
  held : s.turn = true
  own : ∀ now nonce, a.by = some (.beat now nonce) → resultOf a = none →
    s.heartbeat.pingOutstanding = true → s.heartbeat.pingNonce = nonce
  gone : resultOf a = some .backpressure → s.heartbeat.pingOutstanding = false

def turns : Guarded State Section := ⟨fun _ => True, Turns⟩

theorem PingFrom.idle (ping : PingFrom s s') (idle : s.heartbeat.pingOutstanding = false) :
    s'.heartbeat.pingOutstanding = false := by
  cases outstanding : s'.heartbeat.pingOutstanding with
  | false => rfl
  | true =>
    have before := ping.before outstanding
    rw [idle] at before
    cases before

theorem turns_on (ping : PingFrom s s') (held : s'.turn = true) (knows : Turns s a)
    (mine : b.by = none ∨ b.by = a.by) (result : resultOf b = resultOf a) : Turns s' b where
  held := held
  own := by
    intro now nonce by_beat unsettled outstanding
    rcases mine with none | same
    · rw [none] at by_beat
      cases by_beat
    · rw [ping.nonce outstanding]
      exact knows.own now nonce (same ▸ by_beat) (result ▸ unsettled) (ping.before outstanding)
  gone := fun refused => ping.idle (knows.gone (result ▸ refused))

theorem turns_plain (held : s.turn = true) (none : b.by = none)
    (unsettled : resultOf b ≠ some .backpressure) : Turns s b where
  held := held
  own := by
    intro now nonce by_beat
    rw [none] at by_beat
    cases by_beat
  gone := fun refused => absurd refused unsettled

theorem turns_settled {res : Result} (held : s.turn = true)
    (settled : resultOf b = some res) (other : res ≠ .backpressure) : Turns s b where
  held := held
  own := by
    intro _ _ _ unsettled
    rw [settled] at unsettled
    cases unsettled
  gone := by
    intro refused
    rw [settled] at refused
    exact absurd (Option.some.inj refused) other

theorem turns_section {n : Next} (ping : PingFrom s s') (held : s'.turn = true) (knows : Turns s a)
    (mine : a.by = some n.by) (result : resultOf a = nextRes n) : Turns s' n.section := by
  cases n <;> exact turns_on ping held knows (.inr mine.symm) result.symm

theorem turns_refused {n : Next} (ping : PingFrom s s') (held : s'.turn = true) (knows : Turns s a)
    (mine : a.by = some n.by) (result : resultOf a = nextRes n) : Turns s' n.refused := by
  cases n <;> exact turns_on ping held knows (.inr mine.symm) result.symm

theorem turns_after {after : After} (ping : PingFrom s s') (held : s'.turn = true)
    (knows : Turns s a) (mine : a.by = some after.by) (result : resultOf a = afterRes after) :
    Turns s' after.section := by
  cases after <;> exact turns_on ping held knows (.inr mine.symm) result.symm

theorem idle_cancel {h : Heartbeat} {nonce : Nat}
    (own : h.pingOutstanding = true → h.pingNonce = nonce) :
    (h.cancelPing nonce).pingOutstanding = false := by
  cases outstanding : h.pingOutstanding with
  | false => simp only [Heartbeat.cancelPing, outstanding, Bool.false_eq_true, false_and, if_false]
  | true =>
    simp only [Heartbeat.cancelPing, outstanding, own outstanding, and_self, if_true,
      Heartbeat.clearPingLocked]

theorem turns_send (step : SendStep s a s' more) (mine : a.ticks = true) (knows : Turns s a) :
    ∀ b ∈ more, Turns s' b := by
  have ping := pingFrom_send step
  have held := knows.held
  intro b pushed
  cases step
  case send | sent | failApp | releaseApp => cases mine
  case target f k =>
    exact List.mem_singleton.mp pushed ▸
      turns_on ping ((markTarget_locks s f k false).2.trans held) knows (.inr rfl) rfl
  case targetDirect f k =>
    exact List.mem_singleton.mp pushed ▸
      turns_on ping ((markTarget_locks s f k true).2.trans held) knows (.inr rfl) rfl
  case empty n _ | handed n =>
    exact List.mem_singleton.mp pushed ▸ turns_section ping held knows rfl rfl
  case uncount after => exact List.mem_singleton.mp pushed ▸ turns_after ping held knows rfl rfl
  case failStream n _ => exact List.mem_singleton.mp pushed ▸ turns_refused ping held knows rfl rfl
  case failBeat now nonce res =>
    refine List.mem_singleton.mp pushed ▸ ⟨held, nofun, fun _ => ?_⟩
    exact idle_cancel (knows.own now nonce rfl rfl)
  case rawFlush => exact List.mem_singleton.mp pushed ▸ turns_settled held rfl nofun
  case releaseBeat => exact List.mem_singleton.mp pushed ▸ turns_on ping held knows (.inl rfl) rfl
  all_goals exact List.mem_singleton.mp pushed ▸ turns_on ping held knows (.inr rfl) rfl

theorem turns_tick (step : TickStep cfg s a s' more) (mine : a.ticks = true) (knows : Turns s a) :
    ∀ b ∈ more, Turns s' b := by
  have held := knows.held
  intro b pushed
  cases step
  case begin | timerShut | timerDefers | timerEnters | tick => cases mine
  case lockShut | lockHeld => exact List.mem_singleton.mp pushed ▸ turns_settled held rfl (by simp)
  case lockBegins now nonce free idle =>
    refine List.mem_singleton.mp pushed ▸ ⟨held, ?_, (by rintro ⟨⟩)⟩
    intro _ other by_beat _ _
    obtain ⟨-, rfl⟩ := Sender.beat.inj (Option.some.inj by_beat)
    simp only [Heartbeat.beginPing, idle, Bool.false_eq_true, if_false]
  case pingedStalls =>
    exact List.mem_singleton.mp pushed ▸
      turns_on (pingFrom_same rfl rfl rfl) held knows (.inl rfl) rfl
  case endTick => cases pushed
  all_goals exact List.mem_singleton.mp pushed ▸ turns_plain held rfl (by rintro ⟨⟩)

theorem other_ticks (step : OtherStep s a s' more) : a.ticks = false := by
  cases step <;> rfl

theorem turns_apart (step : Step cfg s a s' more) (beside : a.ticks = false)
    (knows : Turns s b) : Turns s' b := by
  have ping := pingFrom_step step (by rintro _ _ rfl; cases beside)
  refine turns_on ping ?_ knows (.inr rfl) rfl
  have held := knows.held
  cases step with
  | send step =>
    cases step
    case target f k => exact (markTarget_locks s f k false).2.trans held
    case targetDirect f k => exact (markTarget_locks s f k true).2.trans held
    all_goals exact held
  | tick step =>
    cases step
    case endTick => cases beside
    all_goals first | exact held | rfl
  | other step => cases step <;> exact held

theorem turns_taking (step : Step cfg s a s' more) (beside : a.ticks = false)
    (pushed : b ∈ more) (ticks : b.ticks = true) : Turns s' b := by
  cases step with
  | send step =>
    refine absurd ticks (Bool.eq_false_iff.mp ?_)
    cases step
    case empty n _ | handed n => exact List.mem_singleton.mp pushed ▸ (ticks_section n).trans beside
    case uncount after => exact List.mem_singleton.mp pushed ▸ (ticks_after after).trans beside
    case failStream n _ => exact List.mem_singleton.mp pushed ▸ (ticks_refused n).trans beside
    case send => exact List.mem_singleton.mp pushed ▸ rfl
    case releaseApp => cases pushed
    case releaseBeat => cases beside
    all_goals exact List.mem_singleton.mp pushed ▸ beside
  | tick step =>
    cases step
    case begin => cases pushed
    case timerShut | timerDefers | timerEnters | tick =>
      exact List.mem_singleton.mp pushed ▸ turns_plain rfl rfl nofun
    all_goals cases beside
  | other step =>
    cases step
    case transportSent | reduce | retire =>
      exact absurd ticks (List.mem_singleton.mp pushed ▸ Bool.false_ne_true)
    all_goals cases pushed

theorem turned (run : Reachable (program cfg) start p) : turns.Kept turn p.state (owed p) := by
  refine guarded turn_handed turn_calls rfl ?_ ?_ ?_ ?_ ?_ run
  · exact ⟨fun _ => trivial, fun a member => absurd member (Multiset.notMem_zero a)⟩
  · intro s a c ready mine _ knows
    refine ⟨fun _ => trivial, fun b pushed _ => ?_⟩
    cases exec_step cfg c a s ready with
    | send step => exact turns_send step mine knows b (Multiset.mem_coe.mp pushed)
    | tick step => exact turns_tick step mine knows b (Multiset.mem_coe.mp pushed)
    | other step => exact absurd mine (Bool.eq_false_iff.mp (other_ticks step))
  · intro s a c _ _ _
    trivial
  · intro s a b c ready beside pushed ticks _
    exact turns_taking (exec_step cfg c a s ready) beside pushed ticks
  · intro s a b c ready beside _ knows
    exact turns_apart (exec_step cfg c a s ready) beside knows

end Pings

section Refusals

/-- The first refusal still waiting is the stall, and a retry runs from it. -/
structure Refused (s : State) : Prop where
  unset : s.refusedAt = none → s.heartbeat.sendStalledAt = 0
  since : ∀ t, s.refusedAt = some t → 0 < t ∧ s.heartbeat.sendStalledAt = t ∧
    (s.heartbeat.pingOutstanding = true →
      s.heartbeat.pingSentAt = 0 ∧ s.heartbeat.pingQueuedAt = t)

theorem refused_none (none : s.refusedAt = none) (stall : s.heartbeat.sendStalledAt = 0) :
    Refused s :=
  ⟨fun _ => stall, fun t waiting => by rw [none] at waiting; cases waiting⟩

theorem refused_kept (held : Refused s) (at_same : s'.refusedAt = s.refusedAt)
    (stall : s'.heartbeat.sendStalledAt = s.heartbeat.sendStalledAt)
    (ping : s'.heartbeat.pingOutstanding = true → s.heartbeat.pingOutstanding = true ∧
      s'.heartbeat.pingSentAt = s.heartbeat.pingSentAt ∧
      s'.heartbeat.pingQueuedAt = s.heartbeat.pingQueuedAt) : Refused s' := by
  constructor
  · intro none
    rw [stall]
    exact held.unset (at_same ▸ none)
  · intro t waiting
    obtain ⟨positive, since, retry⟩ := held.since t (at_same ▸ waiting)
    refine ⟨positive, stall.trans since, ?_⟩
    intro outstanding
    obtain ⟨before, sent, queued⟩ := ping outstanding
    rw [sent, queued]
    exact retry before

theorem refused_markTarget (held : Refused s) : Refused (s.markTarget f k direct) := by
  unfold State.markTarget Heartbeat.markPingTarget
  split
  · split <;> exact refused_kept held rfl rfl fun outstanding => ⟨outstanding, rfl, rfl⟩
  · split <;> exact refused_kept held rfl rfl fun outstanding => ⟨outstanding, rfl, rfl⟩
  · exact held

theorem refused_cancel (nonce : Nat) (held : Refused s) :
    Refused { s with heartbeat := s.heartbeat.cancelPing nonce } := by
  unfold Heartbeat.cancelPing
  split
  · exact refused_kept held rfl rfl nofun
  · exact refused_kept held rfl rfl fun outstanding => ⟨outstanding, rfl, rfl⟩

theorem refused_begin {nonce : Nat} (held : Refused s)
    (idle : s.heartbeat.pingOutstanding = false) :
    Refused { s with mu := true, heartbeat := (s.heartbeat.beginPing now nonce).1 } := by
  simp only [Heartbeat.beginPing, idle, Bool.false_eq_true, if_false]
  refine ⟨held.unset, ?_⟩
  intro t waiting
  obtain ⟨positive, since, -⟩ := held.since t waiting
  refine ⟨positive, since, fun _ => ⟨rfl, ?_⟩⟩
  simp only [since]
  exact if_pos (by omega)

theorem refused_stall (held : Refused s) (positive : 0 < now)
    (idle : s.heartbeat.pingOutstanding = false) :
    Refused
      { s with
        heartbeat := s.heartbeat.noteSendStall now, refusedAt := s.refusedAt <|> some now } := by
  have outstanding (h : s.heartbeat.pingOutstanding = true) : False := by
    rw [idle] at h
    cases h
  cases waiting : s.refusedAt with
  | none =>
    have unset := held.unset waiting
    simp only [Heartbeat.noteSendStall, if_pos (And.intro idle unset)]
    refine ⟨nofun, ?_⟩
    rintro t ⟨⟩
    exact ⟨positive, rfl, fun h => (outstanding h).elim⟩
  | some t =>
    obtain ⟨since, stall, -⟩ := held.since t waiting
    have set : ¬(s.heartbeat.pingOutstanding = false ∧ s.heartbeat.sendStalledAt = 0) := by omega
    simp only [Heartbeat.noteSendStall, if_neg set]
    exact refused_kept held waiting.symm rfl fun h => (outstanding h).elim

theorem refused_send (step : SendStep s a s' more) (held : Refused s) : Refused s' := by
  cases step
  case target f k => exact refused_markTarget f k false held
  case targetDirect f k => exact refused_markTarget f k true held
  case failBeat now nonce res => exact refused_cancel nonce held
  all_goals exact refused_kept held rfl rfl fun outstanding => ⟨outstanding, rfl, rfl⟩

theorem refused_tick (step : TickStep cfg s a s' more) (carries : Carries cfg s a)
    (knows : a.ticks = true → Turns s a) (held : Refused s) : Refused s' := by
  cases step
  case expired h idle stall late => exact refused_none rfl stall
  case lockBegins idle => exact refused_begin held idle
  case noteSendStall now => exact refused_stall held (carries now rfl).1 ((knows rfl).gone rfl)
  all_goals exact refused_kept held rfl rfl fun outstanding => ⟨outstanding, rfl, rfl⟩

theorem refused_other (step : OtherStep s a s' more) (clock : 0 < s.clock) (held : Refused s) :
    Refused s' := by
  cases step
  case markPingSent ended => exact refused_none (ended clock) rfl
  case pong => exact refused_none rfl rfl
  all_goals exact refused_kept held rfl rfl fun outstanding => ⟨outstanding, rfl, rfl⟩

/-- What is known of a run before a section: the clock, and what the holder of the turn
knows. -/
structure Known (cfg : Config) (s : State) (owing : Multiset Section) : Prop where
  clocked : Clocked cfg s
  carries : ∀ a ∈ owing, Carries cfg s a
  turned : turns.Kept turn s owing
  counted : Counted s owing

theorem known (run : Reachable (program cfg) start p) : Known cfg p.state (owed p) :=
  ⟨(clocked run).1, (clocked run).2, turned run, counted run⟩

theorem Known.turns {others : Multiset Section} (known : Known cfg s (a ::ₘ others))
    (mine : a.ticks = true) : Turns s a :=
  known.turned.2 a (Multiset.mem_cons_self a others) mine

theorem refused (run : Reachable (program cfg) start p) : Refused p.state := by
  refine owed_invariant_given (Known cfg) (fun s _ => Refused s) (fun r before => known before) ?_ ?_
    ?_ run
  · exact ⟨fun _ => rfl, nofun⟩
  · intro s others a entry held
    exact held
  · intro s others a c ready _ known held
    have carries := known.carries a (Multiset.mem_cons_self a others)
    cases exec_step cfg c a s ready with
    | send step => exact refused_send step held
    | tick step => exact refused_tick step carries known.turns held
    | other step => exact refused_other step known.clocked.clock held

theorem Refused.expiry {t : Int} (held : Refused s) (waiting : s.refusedAt = some t)
    (timeout : Int) : s.heartbeat.expiryLocked timeout = .some (t + timeout) := by
  obtain ⟨positive, stall, retry⟩ := held.since t waiting
  have set : t ≠ 0 := by omega
  cases outstanding : s.heartbeat.pingOutstanding with
  | false =>
    simp only [Heartbeat.expiryLocked, outstanding, Bool.false_eq_true, if_false, stall, if_neg set]
  | true =>
    obtain ⟨unsent, queued⟩ := retry outstanding
    simp only [Heartbeat.expiryLocked, Heartbeat.startedAt, outstanding, if_true, unsent, ne_eq,
      not_true_eq_false, if_false, queued, if_neg set]

end Refusals

end UwsHeartbeatSound
