import Uio.Uws.HeartbeatSound

/-!
When the heartbeat's Ping counts as sent, and how it ends. A Ping's own send knows, under
`writes.mu`, how far the Ping is from the transport; once the mutex is free an outstanding
Ping has entered it. So its target never lies before its end, whoever marked it, and no
report passes the target before the Ping's last byte left.
-/
namespace UwsHeartbeatMarks
open Interleaving Monitor UwsHeartbeat UwsHeartbeatRuns UwsHeartbeatSound
variable {cfg : Config} {s s' : State} {a b : Section} {more : List Section}

section Stages

/-- How far an outstanding Ping is, as its sender knows it: without a target yet, ending at
most `ahead` bytes past what entered the transport, or refused and about to be cancelled. -/
inductive Stage where
  | fresh
  | within (ahead : Nat)
  | lost

def Stage.Holds (s : State) : Stage → Prop
  | .fresh => s.heartbeat.pingOutstanding = true →
      s.heartbeat.pingTarget = 0 ∧ s.heartbeat.pingSentAt = 0
  | .within ahead => s.heartbeat.pingOutstanding = true → s.pingEnd ≤ s.entered + ahead
  | .lost => True

def nextStage (bytes : Nat) : Next → Stage
  | .append _ (.beat _ _) | .track _ (.beat _ _) => .fresh
  | .flushed (.beat _ _) => .within bytes
  | _ => .within 0

def refusedStage : Next → Stage
  | .append _ (.beat _ _) | .track _ (.beat _ _) | .flushed (.beat _ _) => .lost
  | _ => .within 0

def afterStage : After → Stage
  | .fail (.beat _ _) _ => .lost
  | .fail (.app _) _ => .within 0
  | .batch n => refusedStage n

/-- Where the Ping is when a section is due, given what the batch holds. -/
def stage (batch : Nat) : Section → Stage
  | .route _ (.beat _ _) | .append _ (.beat _ _) | .track _ (.beat _ _) | .count _ (.beat _ _)
  | .markTarget _ (.beat _ _) _ => .fresh
  | .write f (.beat _ _) => .within (batch + f.size)
  | .sent (.beat _ _) => .within batch
  | .flushBatch n => nextStage batch n
  | .pend bytes n | .hand bytes n => nextStage bytes n
  | .failStream n => refusedStage n
  | .rollback _ after | .uncount _ after => afterStage after
  | .fail (.beat _ _) _ => .lost
  | _ => .within 0

theorem holds_kept {at_ : Stage} (heartbeat : s'.heartbeat = s.heartbeat)
    (ends : s'.pingEnd = s.pingEnd) (more : s.entered ≤ s'.entered) (holds : at_.Holds s) :
    at_.Holds s' := by
  cases at_ with
  | fresh => exact fun outstanding => heartbeat ▸ holds (heartbeat ▸ outstanding)
  | within ahead =>
    intro outstanding
    have before : s.pingEnd ≤ s.entered + ahead := holds (heartbeat ▸ outstanding)
    omega
  | lost => trivial

theorem holds_idle {at_ : Stage} (idle : s.heartbeat.pingOutstanding = false) : at_.Holds s := by
  cases at_ with
  | fresh | within ahead =>
    intro outstanding
    rw [idle] at outstanding
    cases outstanding
  | lost => trivial

theorem holds_handed {bytes batch : Nat} {n : Next} (heartbeat : s'.heartbeat = s.heartbeat)
    (ends : s'.pingEnd = s.pingEnd) (entered : s'.entered = s.entered + bytes)
    (holds : (nextStage bytes n).Holds s) : (stage batch n.section).Holds s' := by
  have more : s.entered ≤ s'.entered := by omega
  have landed (held : (Stage.within bytes).Holds s) : (Stage.within 0).Holds s' := by
    intro outstanding
    have before : s.pingEnd ≤ s.entered + bytes := held (heartbeat ▸ outstanding)
    omega
  cases n with
  | append f k | track f k => cases k <;> exact holds_kept heartbeat ends more holds
  | release k res => exact holds_kept heartbeat ends more holds
  | flushed k =>
    cases k with
    | app flush => exact holds_kept heartbeat ends more holds
    | beat now nonce => exact landed holds

theorem holds_refused {batch : Nat} {n : Next} (heartbeat : s'.heartbeat = s.heartbeat)
    (ends : s'.pingEnd = s.pingEnd) (more : s.entered ≤ s'.entered)
    (holds : (refusedStage n).Holds s) : (stage batch n.refused).Holds s' := by
  cases n with
  | release k res => exact holds_kept heartbeat ends more holds
  | append f k | track f k | flushed k => cases k <;> exact holds_kept heartbeat ends more holds

theorem holds_lost {bytes : Nat} {n : Next} (heartbeat : s'.heartbeat = s.heartbeat)
    (ends : s'.pingEnd = s.pingEnd) (more : s.entered ≤ s'.entered)
    (holds : (nextStage bytes n).Holds s) : (refusedStage n).Holds s' := by
  cases n with
  | release k res => exact holds_kept heartbeat ends more holds
  | append f k | track f k | flushed k =>
    cases k with
    | app flush => exact holds_kept heartbeat ends more holds
    | beat now nonce => trivial

theorem holds_marked {f : Frame} {k : Sender} {direct : Bool} {batch : Nat}
    (holds : (stage batch (.markTarget f k direct)).Holds s) :
    (match k with
      | .app _ => Stage.within 0
      | .beat _ _ => .within (s.batch + if direct then f.size else 0)).Holds
      (s.markTarget f k direct) := by
  cases k with
  | app flush =>
    intro outstanding
    obtain ⟨same, -⟩ := markTarget_sent s f (.app flush) direct
    obtain ⟨-, -, entered, -⟩ := markTarget_books s f (.app flush) direct
    have ends : (s.markTarget f (.app flush) direct).pingEnd = s.pingEnd := by
      unfold State.markTarget
      split
      · contradiction
      · rfl
      · rfl
    have before : s.pingEnd ≤ s.entered + 0 := holds (same ▸ outstanding)
    omega
  | beat now nonce =>
    intro outstanding
    simp only [State.markTarget]
    omega

theorem stage_held (step : SendStep s a s' more) (holder : mu.holds a = true)
    (knows : a.ticks = true → Turns s a) (holds : (stage s.batch a).Holds s) :
    ∀ b ∈ more, (stage s'.batch b).Holds s' := by
  intro b pushed
  cases step
  case send => cases holder
  case releaseApp => cases pushed
  all_goals obtain rfl := List.mem_singleton.mp pushed
  case shut f k =>
    cases k with
    | app flush => exact holds
    | beat now nonce => trivial
  case full f k | joins f k | direct f k | sentFlush k => cases k <;> exact holds
  case empty n none =>
    have holds : (nextStage s.batch n).Holds s := holds
    exact holds_handed rfl rfl (by omega) holds
  case flush n | pend bytes n => exact holds_kept rfl rfl le_rfl holds
  case handed bytes n => exact holds_handed (s := s) rfl rfl rfl holds
  case handRefused bytes taken n less =>
    exact holds_lost (s := s) rfl rfl (Nat.le_add_right _ _) holds
  case append f k | track f k | count f k =>
    cases k <;> exact holds_kept (s := s) rfl rfl le_rfl holds
  case target f k | targetDirect f k =>
    have marked := holds_marked holds
    cases k <;> exact marked
  case wrote f k =>
    cases k with
    | app flush => exact holds_kept (s := s) rfl rfl (Nat.le_add_right _ _) holds
    | beat now nonce =>
      intro outstanding
      have before : s.pingEnd ≤ s.entered + (s.batch + f.size) := holds outstanding
      simp only
      omega
  case writeRefused f k taken res less =>
    cases k with
    | app flush => exact holds_kept (s := s) rfl rfl (Nat.le_add_right _ _) holds
    | beat now nonce => trivial
  case rollback bytes after | releaseBeat => exact holds_kept (s := s) rfl rfl le_rfl holds
  case uncount bytes after =>
    cases after with
    | fail k res => cases k <;> exact holds_kept (s := s) rfl rfl le_rfl holds
    | batch n => exact holds_kept (s := s) rfl rfl le_rfl holds
  case failStream n closing => exact holds_refused (s := s) rfl rfl le_rfl holds
  case sent flush | rawFlush | failApp | unlock | unlockFlush => exact holds
  case rawFlushFails k =>
    cases k with
    | app flush => exact holds
    | beat now nonce => trivial
  case failBeat now nonce res => exact holds_idle (idle_cancel ((knows rfl).own now nonce rfl rfl))

end Stages

section Writes

/-- While nobody sends, an outstanding Ping has entered the transport. -/
def writes : Guarded State Section :=
  ⟨fun s => s.mu = false → (Stage.within 0).Holds s,
    fun s a => s.mu = true ∧ (stage s.batch a).Holds s⟩

structure Beside (s s' : State) : Prop where
  mu : s'.mu = s.mu
  entered : s'.entered = s.entered
  batch : s'.batch = s.batch
  ends : s'.pingEnd = s.pingEnd
  before : s'.heartbeat.pingOutstanding = true → s.heartbeat.pingOutstanding = true
  fresh : s'.heartbeat.pingOutstanding = true → s.heartbeat.pingTarget = 0 →
    s.heartbeat.pingSentAt = 0 → s'.heartbeat.pingTarget = 0 ∧ s'.heartbeat.pingSentAt = 0

theorem Beside.holds {at_ : Stage} (beside : Beside s s') (holds : at_.Holds s) : at_.Holds s' := by
  cases at_ with
  | fresh =>
    intro outstanding
    obtain ⟨target, sent⟩ := holds (beside.before outstanding)
    exact beside.fresh outstanding target sent
  | within ahead =>
    intro outstanding
    have reaches : s.pingEnd ≤ s.entered + ahead := holds (beside.before outstanding)
    rw [beside.ends, beside.entered]
    exact reaches
  | lost => trivial

theorem beside_idle (mu : s'.mu = s.mu) (entered : s'.entered = s.entered)
    (batch : s'.batch = s.batch) (ends : s'.pingEnd = s.pingEnd)
    (idle : s'.heartbeat.pingOutstanding = false) : Beside s s' := by
  constructor
  case before | fresh =>
    intro outstanding
    rw [idle] at outstanding
    cases outstanding
  all_goals assumption

theorem beside_step (step : Step cfg s a s' more) (outside : mu.holds a = false) :
    (s.mu = false ∧ s'.mu = true) ∨ Beside s s' := by
  cases step with
  | send step =>
    cases step
    case send f flush free => exact .inl ⟨free, rfl⟩
    all_goals cases outside
  | tick step =>
    cases step
    case lockShut free | lockHeld free | lockBegins free _ => exact .inl ⟨free, rfl⟩
    case expired idle _ _ => exact .inr (beside_idle rfl rfl rfl rfl idle)
    case noteSendStall now =>
      refine .inr ?_
      simp only [Heartbeat.noteSendStall]
      split <;> exact ⟨rfl, rfl, rfl, rfl, id, fun _ target sent => ⟨target, sent⟩⟩
    all_goals exact .inr ⟨rfl, rfl, rfl, rfl, id, fun _ target sent => ⟨target, sent⟩⟩
  | other step =>
    refine .inr ?_
    cases step
    case pong => exact beside_idle rfl rfl rfl rfl rfl
    case markPingSent marked _ _ _ =>
      exact ⟨rfl, rfl, rfl, rfl, id, fun _ target _ => absurd target marked⟩
    all_goals exact ⟨rfl, rfl, rfl, rfl, id, fun _ target sent => ⟨target, sent⟩⟩

theorem mu_held (step : SendStep s a s' more) (locked : s.mu = true) :
    s'.mu = true ∨ s' = { s with mu := false } ∧ ∃ k res, a = .release k res := by
  cases step
  case send => exact .inl rfl
  case releaseApp flush res | releaseBeat now nonce res => exact .inr ⟨rfl, _, res, rfl⟩
  case target f k => exact .inl ((markTarget_locks s f k false).1.trans locked)
  case targetDirect f k => exact .inl ((markTarget_locks s f k true).1.trans locked)
  all_goals exact .inl locked

theorem holder_sends (step : Step cfg s a s' more) (holder : mu.holds a = true) :
    SendStep s a s' more := by
  cases step with
  | send step => exact step
  | tick step | other step => cases step <;> cases holder

theorem writes_held (step : SendStep s a s' more) (holder : mu.holds a = true)
    (locked : s.mu = true) (knows : a.ticks = true → Turns s a)
    (holds : (stage s.batch a).Holds s) : writes.Kept mu s' ↑more := by
  have next := stage_held step holder knows holds
  rcases mu_held step locked with still | ⟨rfl, k, res, rfl⟩
  · constructor
    · intro _ free
      rw [still] at free
      cases free
    · intro b pushed _
      exact ⟨still, next b (Multiset.mem_coe.mp pushed)⟩
  · constructor
    · intro _ _
      exact holds_kept (s := s) rfl rfl le_rfl holds
    · intro b pushed held
      cases step
      · cases Multiset.mem_coe.mp pushed
      · obtain rfl := List.mem_singleton.mp (Multiset.mem_coe.mp pushed)
        cases held

theorem writes_taking (step : Step cfg s a s' more) (outside : mu.holds a = false)
    (pushed : b ∈ more) (held : mu.holds b = true)
    (free : s.mu = false → (Stage.within 0).Holds s) :
    s'.mu = true ∧ (stage s'.batch b).Holds s' := by
  cases step with
  | send step =>
    cases step
    case send f flush unlocked =>
      obtain rfl := List.mem_singleton.mp pushed
      exact ⟨rfl, holds_kept (s := s) rfl rfl le_rfl (free unlocked)⟩
    all_goals cases outside
  | tick step =>
    cases step
    case begin | endTick => cases pushed
    all_goals obtain rfl := List.mem_singleton.mp pushed
    case lockShut unlocked | lockHeld unlocked =>
      exact ⟨rfl, holds_kept (s := s) rfl rfl le_rfl (free unlocked)⟩
    case lockBegins now nonce unlocked idle =>
      refine ⟨rfl, fun _ => ?_⟩
      simp only [Heartbeat.beginPing, idle, Bool.false_eq_true, if_false, and_self]
    all_goals cases held
  | other step =>
    cases step
    case transportSent | reduce | retire => obtain rfl := List.mem_singleton.mp pushed; cases held
    all_goals cases pushed

theorem written {p : Pool State Section} (run : Reachable (program cfg) start p) :
    writes.Kept mu p.state (owed p) := by
  refine guarded_given (Known cfg) (fun r before => known before) mu_handed mu_calls rfl
    ?_ ?_ ?_ ?_ ?_ run
  · refine ⟨fun _ _ => nofun, ?_⟩
    exact fun a member => absurd member (Multiset.notMem_zero a)
  · intro s others a c ready _ known holder locked knows
    exact writes_held (holder_sends (exec_step cfg c a s ready) holder) holder locked known.turns
      knows.2
  · intro s others a c ready _ _ outside free unlocked
    rcases beside_step (exec_step cfg c a s ready) outside with ⟨-, locked⟩ | beside
    · cases locked.symm.trans unlocked
    · exact beside.holds (free (beside.mu ▸ unlocked))
  · intro s others a b c ready _ _ outside pushed held free
    exact writes_taking (exec_step cfg c a s ready) outside pushed held free
  · intro s others a b c ready _ _ outside held knows
    rcases beside_step (exec_step cfg c a s ready) outside with ⟨unlocked, -⟩ | beside
    · rw [knows.1] at unlocked
      cases unlocked
    · exact ⟨beside.mu.trans knows.1, beside.batch ▸ beside.holds knows.2⟩

end Writes

section Marks

/-- A target lies at or past the Ping's end, and a Ping counts as sent once its end was
reported. -/
structure Marked (s : State) : Prop where
  target : s.heartbeat.pingOutstanding = true → s.heartbeat.pingTarget ≠ 0 →
    s.pingEnd ≤ s.heartbeat.pingTarget
  sent : s.heartbeat.pingOutstanding = true → s.heartbeat.pingSentAt ≠ 0 → s.pingEnd ≤ s.reported

theorem marked_kept (held : Marked s) (ends : s'.pingEnd = s.pingEnd)
    (later : s.reported ≤ s'.reported)
    (ping : s'.heartbeat.pingOutstanding = true → s.heartbeat.pingOutstanding = true ∧
      s'.heartbeat.pingTarget = s.heartbeat.pingTarget ∧
      s'.heartbeat.pingSentAt = s.heartbeat.pingSentAt) : Marked s' := by
  constructor
  · intro outstanding set
    obtain ⟨before, target, -⟩ := ping outstanding
    rw [ends, target]
    exact held.target before (target ▸ set)
  · intro outstanding marked
    obtain ⟨before, -, sent⟩ := ping outstanding
    have reached := held.sent before (sent ▸ marked)
    omega

theorem marked_own {f : Frame} {now : Int} {nonce : Nat} {direct : Bool}
    (own : s.heartbeat.pingOutstanding = true → s.heartbeat.pingNonce = nonce)
    (accepted : s.entered + s.batch + between (.markTarget f (.beat now nonce) direct) ≤
      s.outboundAccepted)
    (fresh : Stage.fresh.Holds s) : Marked (s.markTarget f (.beat now nonce) direct) := by
  obtain ⟨same, sent, -⟩ := markTarget_sent s f (.beat now nonce) direct
  constructor
  · intro outstanding _
    have mine : s.heartbeat.pingOutstanding = true ∧ s.heartbeat.pingNonce = nonce :=
      ⟨same ▸ outstanding, own (same ▸ outstanding)⟩
    simp only [State.markTarget, Heartbeat.markPingTarget, if_pos mine]
    cases direct <;> exact accepted
  · intro outstanding marked
    exact absurd (fresh (same ▸ outstanding)).2 (sent ▸ marked)

theorem marked_app {f : Frame} {flush direct : Bool} (held : Marked s)
    (accepted : s.entered ≤ s.outboundAccepted) (entered : (Stage.within 0).Holds s) :
    Marked (s.markTarget f (.app flush) direct) := by
  unfold State.markTarget Heartbeat.markPingTarget
  split
  · contradiction
  · split
    · refine ⟨fun outstanding _ => ?_, held.sent⟩
      have reached : s.pingEnd ≤ s.entered + 0 := entered outstanding
      exact Nat.le_trans reached accepted
    · exact held
  · exact held

theorem marked_markTarget {f : Frame} {k : Sender} {direct : Bool} (held : Marked s)
    (knows : (Section.markTarget f k direct).ticks = true → Turns s (.markTarget f k direct))
    (accepted : s.entered + s.batch + between (.markTarget f k direct) ≤ s.outboundAccepted)
    (holds : (stage s.batch (.markTarget f k direct)).Holds s) :
    Marked (s.markTarget f k direct) := by
  cases k with
  | app flush => exact marked_app held (by omega) holds
  | beat now nonce => exact marked_own ((knows rfl).own now nonce rfl rfl) accepted holds

theorem marked_step {others : Multiset Section} (step : Step cfg s a s' more)
    (known : Known cfg s (a ::ₘ others)) (kept : writes.Kept mu s (a ::ₘ others))
    (held : Marked s) : Marked s' := by
  have accepted := known.counted.accepted
  rw [weigh_cons] at accepted
  have holds (holder : mu.holds a = true) : (stage s.batch a).Holds s :=
    (kept.2 a (Multiset.mem_cons_self a others) holder).2
  cases step with
  | send step =>
    cases step
    case target f k | targetDirect f k =>
      exact marked_markTarget held known.turns (by omega) (holds rfl)
    case failBeat now nonce res =>
      unfold Heartbeat.cancelPing
      split
      · exact marked_kept held rfl le_rfl (by rintro ⟨⟩)
      · exact marked_kept held rfl le_rfl fun outstanding => ⟨outstanding, rfl, rfl⟩
    all_goals exact marked_kept held rfl le_rfl fun outstanding => ⟨outstanding, rfl, rfl⟩
  | tick step =>
    cases step
    case expired idle _ _ =>
      refine marked_kept held rfl le_rfl fun outstanding => ?_
      cases idle.symm.trans outstanding
    case lockBegins idle =>
      simp only [Heartbeat.beginPing, idle, Bool.false_eq_true, if_false]
      exact ⟨fun _ set => absurd rfl set, fun _ set => absurd rfl set⟩
    case noteSendStall now =>
      unfold Heartbeat.noteSendStall
      split <;>
        exact marked_kept held rfl le_rfl fun outstanding => ⟨outstanding, rfl, rfl⟩
    all_goals exact marked_kept held rfl le_rfl fun outstanding => ⟨outstanding, rfl, rfl⟩
  | other step =>
    cases step
    case markPingSent retired outstanding unsent set passed _ _ =>
      refine ⟨held.target, fun _ _ => ?_⟩
      have target := held.target outstanding set
      have reached := known.counted.marks retired (Multiset.mem_cons_self _ others)
      exact Nat.le_trans target (Nat.le_trans passed reached)
    case pong => exact marked_kept held rfl le_rfl (by rintro ⟨⟩)
    case transportSent bytes left _ =>
      exact marked_kept held rfl (Nat.le_add_right _ _) fun outstanding => ⟨outstanding, rfl, rfl⟩
    all_goals exact marked_kept held rfl le_rfl fun outstanding => ⟨outstanding, rfl, rfl⟩

theorem marked {p : Pool State Section} (run : Reachable (program cfg) start p) :
    Marked p.state := by
  refine owed_invariant_given (fun s owing => Known cfg s owing ∧ writes.Kept mu s owing)
    (fun s _ => Marked s) (fun r before => ⟨known before, written before⟩) ?_ ?_ ?_ run
  · exact ⟨nofun, nofun⟩
  · intro s others a entry held
    exact held
  · intro s others a c ready _ facts held
    exact marked_step (exec_step cfg c a s ready) facts.1 facts.2 held

end Marks

section Ends
variable (cfg)

/-- What ends an outstanding Ping: a Pong with its nonce, a tick past its deadline, or its
own send when that fails. -/
inductive Ends (s : State) : Section → Prop where
  | pong : Ends s (.pong s.heartbeat.pingNonce)
  | expired (now : Int) (late : s.heartbeat.startedAt + cfg.heartbeatTimeout ≤ now) :
      Ends s (.expirePing now)
  | unsent (now : Int) (res : Result) : Ends s (.fail (.beat now s.heartbeat.pingNonce) res)

/-- What ends the wait that a refused Ping began: a Ping sent, answered or expired. -/
inductive Serves (s s' : State) : Section → Prop where
  | sent (retired : Nat) (outstanding : s'.heartbeat.pingOutstanding = true)
      (marked : s'.heartbeat.pingSentAt = s.clock) : Serves s s' (.markPingSent retired)
  | answered (outstanding : s.heartbeat.pingOutstanding = true) :
      Serves s s' (.pong s.heartbeat.pingNonce)
  | expired (now : Int) : Serves s s' (.expirePing now)

variable {cfg}

def StillOut (s s' : State) : Prop :=
  s'.heartbeat.pingOutstanding = true ∧ s'.heartbeat.pingNonce = s.heartbeat.pingNonce

theorem stillOut_markTarget {f : Frame} {k : Sender} {direct : Bool}
    (outstanding : s.heartbeat.pingOutstanding = true) : StillOut s (s.markTarget f k direct) := by
  have same := (markTarget_sent s f k direct).1.trans outstanding
  exact ⟨same, (pingFrom_markTarget s f k direct).nonce same⟩

theorem ends_step (step : Step cfg s a s' more) (outstanding : s.heartbeat.pingOutstanding = true) :
    StillOut s s' ∨ Ends cfg s a := by
  cases step with
  | send step =>
    cases step
    case target f k | targetDirect f k => exact .inl (stillOut_markTarget outstanding)
    case failBeat now nonce res =>
      unfold StillOut Heartbeat.cancelPing
      split
      · rename_i mine
        obtain ⟨-, rfl⟩ := mine
        exact .inr (.unsent now res)
      · exact .inl ⟨outstanding, rfl⟩
    all_goals exact .inl ⟨outstanding, rfl⟩
  | tick step =>
    cases step
    case expired now h idle stall late => exact .inr (.expired now (late outstanding))
    case lockBegins idle => cases idle.symm.trans outstanding
    case noteSendStall now =>
      unfold StillOut Heartbeat.noteSendStall
      split <;> exact .inl ⟨outstanding, rfl⟩
    all_goals exact .inl ⟨outstanding, rfl⟩
  | other step =>
    cases step
    case pong nonce free _ same =>
      obtain rfl := same
      exact .inr .pong
    all_goals exact .inl ⟨outstanding, rfl⟩

theorem serves_step (step : Step cfg s a s' more) {t : Int} (waiting : s.refusedAt = some t) :
    s'.refusedAt = some t ∨ Serves s s' a := by
  cases step with
  | send step =>
    cases step
    case target f k | targetDirect f k =>
      exact .inl (by unfold State.markTarget; split <;> exact waiting)
    all_goals exact .inl waiting
  | tick step =>
    cases step
    case expired now h _ _ _ => exact .inr (.expired now)
    case noteSendStall now => exact .inl (by rw [waiting]; rfl)
    all_goals exact .inl waiting
  | other step =>
    cases step
    case markPingSent retired outstanding _ _ _ _ _ => exact .inr (.sent retired outstanding rfl)
    case pong nonce free outstanding same =>
      obtain rfl := same
      exact .inr (.answered outstanding)
    all_goals exact .inl waiting

structure Sound (cfg : Config) (s : State) : Prop where
  sent : s.heartbeat.pingOutstanding = true → s.heartbeat.pingSentAt ≠ 0 → s.pingEnd ≤ s.reported
  expiry : s.isOpen = true → s.heartbeat.pingOutstanding = true → s.heartbeat.pingSentAt ≠ 0 →
    s.ticked < s.heartbeat.pingSentAt + cfg.heartbeatTimeout + cfg.heartbeatTimeout
  refused : ∀ t, s.refusedAt = some t →
    s.heartbeat.expiryLocked cfg.heartbeatTimeout = some (t + cfg.heartbeatTimeout)

/-- In every run of sends, reports, Pongs and ticks, and for every section that may come
next. -/
theorem heartbeat_sound {p : Pool State Section} (run : Reachable (program cfg) start p) :
    Sound cfg p.state ∧ ∀ c a, ready a p.state = true → (p.state.heartbeat.pingOutstanding = true →
        StillOut p.state (exec cfg c a p.state).1 ∨ Ends cfg p.state a) ∧
      ∀ t, p.state.refusedAt = some t → (exec cfg c a p.state).1.refusedAt = some t ∨
          Serves p.state (exec cfg c a p.state).1 a := by
  constructor
  · refine ⟨(marked run).sent, ?_, fun t waiting => (refused run).expiry waiting _⟩
    intro fine outstanding sent
    have within := (clocked run).1.within fine outstanding sent
    omega
  · intro c a allowed
    have step := exec_step cfg c a p.state allowed
    exact ⟨ends_step step, fun t => serves_step step⟩

def everyTen : Config := ⟨⟨10, 30, ten_pos, by decide⟩, false⟩

/-- The first Ping is refused at 11, and the Ping of the next tick taken. -/
def retriedPing : List (Move Section Choice) :=
  List.flatten [[.start .beginHeartbeat], runs 0 1 {}, [.start (.elapse 10)], runs 1 1 {},
    [.start .heartbeatTick], runs 2 12 { nonce := 7 }, runs 2 1 { overflow := true },
    runs 2 10 { round := true }, [.start (.elapse 10)], runs 3 1 {}, [.start .heartbeatTick],
    runs 4 12 { nonce := 9 }, runs 4 1 { taken := 10 }, runs 4 9 { round := true }]

/-- The retry keeps the deadline of the refusal, and is sent once its ten bytes are. -/
theorem heartbeat_sound_retry : ∃ q r,
    (Reachable (program everyTen) start q ∧ q.state.heartbeat.pingOutstanding = true ∧
      q.state.refusedAt = some 11 ∧ q.state.ticked = 21) ∧
    q.state.heartbeat.expiryLocked 30 = some 41 ∧
    (Reachable (program everyTen) start r ∧ r.state.heartbeat.pingOutstanding = true ∧
      r.state.heartbeat.pingSentAt = 21 ∧ r.state.pingEnd = 10) ∧ 10 ≤ r.state.reported := by
  obtain ⟨q, first, one⟩ := replay_reaches (P := program everyTen) (p := start) retriedPing
    (fun q => decide (q.state.heartbeat.pingOutstanding = true ∧ q.state.refusedAt = some 11 ∧
      q.state.ticked = 21)) (by decide +kernel)
  obtain ⟨r, second, two⟩ := replay_reaches (P := program everyTen) (p := start)
    (List.flatten [retriedPing, [.start (.transportSent 10)], runs 5 4 {}])
    (fun r => decide (r.state.heartbeat.pingOutstanding = true ∧
      r.state.heartbeat.pingSentAt = 21 ∧ r.state.pingEnd = 10)) (by decide +kernel)
  have retry := of_decide_eq_true one
  have sent := of_decide_eq_true two
  refine ⟨q, r, ⟨first, retry⟩, (heartbeat_sound first).1.refused 11 retry.2.1, ⟨second, sent⟩, ?_⟩
  have reported := (heartbeat_sound second).1.sent sent.1 (by rw [sent.2.1]; decide)
  rw [sent.2.2] at reported
  exact reported

end Ends

end UwsHeartbeatMarks
