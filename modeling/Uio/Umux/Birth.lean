import Uio.Umux.Edits

/- The two sections that make stream objects: Open for this side's streams and
   `acceptVet` for the peer's. An object they make starts out blank, and the objects
   that exist already keep what they have. -/
namespace UmuxBirth
open UmuxOutbox UmuxSession UmuxSettings UmuxMachine UmuxLifecycle UmuxTimers UmuxTurn UmuxFootprint
open UmuxEdits UmuxSteps
variable (cfg : Endpoint) (c : Oracle) (s : Session) {r : Ref}

def creates : Section → Bool
  | .openStream _ | .acceptVet _ _ _ => true
  | _ => false

structure Object where
  rx : Rx
  win : UmuxWindow.SendWindow
  wmu : Bool
  life : Life
  watch : Watch
  mailbox : Option (Option Cause)
  sent : Nat
  returned : Bool
  accepted : List UInt8

def object (s : Session) (r : Ref) : Object :=
  ⟨s.inbox.rx r, s.win r, s.wmu r, s.life r, s.time.watch r, s.mail.mailbox r, s.mail.sent r,
    s.mail.returned r, s.accepted r⟩

theorem newStream_old (id : Nat) (isLocal : Bool)
    (old : r < s.reg.fresh) : object (newStream cfg s id isLocal) r = object s r := by
  have apart : r ≠ s.reg.fresh := Nat.ne_of_lt old
  simp [object, newStream, apart]

theorem tuneWindows_old (delta : Nat) {r q : Ref} (other : r ≠ q) :
    object (tuneWindows cfg q delta s) r = object s r := by
  simp [object, tuneWindows, Session.setRx, other]

theorem creates_old {a : Section} {s : Session} (made : creates a = true) (old : r < s.reg.fresh) :
    object (exec cfg c a s).1 r = object s r := by
  have apart : r ≠ s.reg.fresh := Nat.ne_of_lt old
  cases a
  case openStream metadata =>
    simp only [exec, openStream]
    split
    · rfl
    · split
      · exact newStream_old cfg s s.reg.nextID true old
      · refine Eq.trans ?_ (newStream_old cfg s s.reg.nextID true old)
        simp [object, returnOpen, apart]
        exact ⟨rfl, rfl, rfl, rfl, rfl, rfl, rfl, rfl, rfl⟩
  case acceptVet id delta metadata =>
    have kept : object (tuneWindows cfg s.reg.fresh delta (newStream cfg s id false)) r =
        object s r :=
      (tuneWindows_old cfg _ delta apart).trans (newStream_old cfg s id false old)
    simp only [exec, acceptVet]
    (repeat' split) <;> first | rfl | exact kept
  all_goals cases made

structure Blank (x : Object) : Prop where
  inbuf : x.rx.inbuf = []
  buffered : x.rx.win.buffered = 0
  consumed : x.rx.win.consumed = 0
  wmu : x.wmu = false
  peerFIN : x.life.peerFIN = false
  localFIN : x.life.localFIN = false
  closedLocal : x.life.closedLocal = false
  sent : x.sent = 0
  mailbox : x.mailbox = none
  accepted : x.accepted = []

theorem newStream_blank (id : Nat) (isLocal : Bool) :
    Blank (object (newStream cfg s id isLocal) s.reg.fresh) := by
  constructor <;> simp [object, newStream, UmuxWindow.newRecvWindow, UmuxWindow.RecvWindow.retune]

theorem tuneWindows_blank {s : Session} (delta : Nat)
    (blank : Blank (object s r)) : Blank (object (tuneWindows cfg r delta s) r) := by
  obtain ⟨inbuf, buffered, consumed, wmu, peerFIN, localFIN, closedLocal, sent, mailbox, accepted⟩ :=
    blank
  refine ⟨?_, ?_, ?_, wmu, peerFIN, localFIN, closedLocal, sent, mailbox, accepted⟩ <;>
    simpa [object, tuneWindows, Session.setRx, UmuxWindow.RecvWindow.retune]

theorem visitId_names (now : Nat) (round : Round) (id : Nat) :
    (Round.visitId cfg now round id).state.reg.fresh = round.state.reg.fresh ∧
      (Round.visitId cfg now round id).state.reg.idOf = round.state.reg.idOf ∧
      (Round.visitId cfg now round id).state.reg.nextID = round.state.reg.nextID := by
  unfold Round.visitId
  split
  · exact ⟨rfl, rfl, rfl⟩
  · unfold Round.visitStream
    simp only
    (repeat' split) <;> exact ⟨rfl, rfl, rfl⟩

theorem visitIds_names (now : Nat) (ids : List Nat) (round : Round) :
    (ids.foldl (Round.visitId cfg now) round).state.reg.fresh = round.state.reg.fresh ∧
      (ids.foldl (Round.visitId cfg now) round).state.reg.idOf = round.state.reg.idOf ∧
      (ids.foldl (Round.visitId cfg now) round).state.reg.nextID = round.state.reg.nextID := by
  induction ids generalizing round with
  | nil => exact ⟨rfl, rfl, rfl⟩
  | cons id rest ih =>
    obtain ⟨fresh, idOf, nextID⟩ := ih (Round.visitId cfg now round id)
    obtain ⟨fresh', idOf', nextID'⟩ := visitId_names cfg now round id
    exact ⟨fresh.trans fresh', idOf.trans idOf', nextID.trans nextID'⟩

theorem keepAlive_reg (now : Nat) (s : Session) : (keepAlive cfg now s).1.reg = s.reg := by
  unfold keepAlive
  (repeat' split) <;> rfl

theorem readFrame_reg :
    (readFrame cfg c s).1.reg = { s.reg with openWait := (readFrame cfg c s).1.reg.openWait } := by
  have taken := readFrame_taken cfg c s
  generalize readFrame cfg c s = step at taken ⊢
  cases taken with
  | ended => rfl
  | failed e => rfl
  | frame f arrived formed valid handled => cases handled <;> rfl

theorem exec_names {a : Section} {s : Session} (other : creates a = false) :
    (exec cfg c a s).1.reg.fresh = s.reg.fresh ∧ (exec cfg c a s).1.reg.idOf = s.reg.idOf ∧
      (exec cfg c a s).1.reg.nextID = s.reg.nextID := by
  by_cases untouched : touches a .reg = false
  · rw [exec_reg cfg c s untouched]
    exact ⟨rfl, rfl, rfl⟩
  · cases a
    case abortStream r cause =>
      simp only [exec, abortStream]
      split <;> exact ⟨rfl, rfl, rfl⟩
    case tryFinish r =>
      simp only [exec, tryFinish]
      split <;> exact ⟨rfl, rfl, rfl⟩
    case removeStream r reset | abortRemote r cause => exact ⟨rfl, rfl, rfl⟩
    case readFrame =>
      simp only [exec]
      rw [readFrame_reg]
      exact ⟨rfl, rfl, rfl⟩
    case timerRound now =>
      have names := visitIds_names cfg now (visit c.order s.reg.streams) ⟨s, [], [], [], []⟩
      have round : (timerRound cfg c s now).1.reg = ((visit c.order s.reg.streams).foldl
          (Round.visitId cfg now) ⟨s, [], [], [], []⟩).state.reg := by
        unfold timerRound
        simp only
        split <;> exact keepAlive_reg cfg now _
      simp only [exec, round]
      exact names
    case onTransportClose cause =>
      simp only [exec, onTransportClose]
      split
      · exact ⟨rfl, rfl, rfl⟩
      · rw [finishDrain_status]
        exact ⟨rfl, rfl, rfl⟩
    all_goals first | exact absurd rfl untouched | cases other

theorem openStream_made (metadata : List UInt8) :
    (openStream cfg c s metadata).1 = s ∨
      (openStream cfg c s metadata).1.reg =
          (register s.reg.nextID s.reg.fresh (newStream cfg s s.reg.nextID true)).reg ∧
        ∃ returned, object (openStream cfg c s metadata).1 s.reg.fresh =
          { object (newStream cfg s s.reg.nextID true) s.reg.fresh with returned := returned } := by
  unfold openStream
  split
  · exact .inl rfl
  · right
    simp only
    split
    · exact ⟨rfl, _, rfl⟩
    · exact ⟨rfl, _, rfl⟩

theorem acceptVet_made (id delta : Nat) (metadata : List UInt8) :
    (acceptVet cfg c s id delta metadata).1.reg = s.reg ∨
      (acceptVet cfg c s id delta metadata).1.reg =
          (publish id s.reg.fresh (newStream cfg s id false)).reg ∧
        ∀ r, object (acceptVet cfg c s id delta metadata).1 r =
          object (tuneWindows cfg s.reg.fresh delta (newStream cfg s id false)) r := by
  unfold acceptVet
  split
  · exact .inl rfl
  · split
    · exact .inl rfl
    · split
      · exact .inl rfl
      · right
        simp only
        (repeat' split) <;> exact ⟨rfl, fun _ => rfl⟩

theorem fresh_grows (a : Section) (s : Session) : s.reg.fresh ≤ (exec cfg c a s).1.reg.fresh := by
  cases made : creates a with
  | false => rw [(exec_names cfg c made).1]
  | true =>
    cases a
    case openStream metadata =>
      rcases openStream_made cfg c s metadata with same | ⟨reg, -⟩
      · simp only [exec, same, Nat.le_refl]
      · simp only [exec, reg]
        exact Nat.le_succ s.reg.fresh
    case acceptVet id delta metadata =>
      rcases acceptVet_made cfg c s id delta metadata with same | ⟨reg, -⟩
      · simp only [exec, same, Nat.le_refl]
      · simp only [exec, reg]
        exact Nat.le_succ s.reg.fresh
    all_goals cases made

theorem exec_born {a : Section} {s : Session}
    (unborn : s.reg.fresh ≤ r) (born : r < (exec cfg c a s).1.reg.fresh) :
    creates a = true ∧ r = s.reg.fresh ∧ Blank (object (exec cfg c a s).1 r) := by
  have made : creates a = true := by
    cases other : creates a with
    | true => rfl
    | false =>
      rw [(exec_names cfg c other).1] at born
      exact absurd born (Nat.not_lt.mpr unborn)
  refine ⟨made, ?_⟩
  cases a
  case openStream metadata =>
    rcases openStream_made cfg c s metadata with same | ⟨reg, returned, new⟩
    · simp only [exec, same] at born
      exact absurd born (Nat.not_lt.mpr unborn)
    · simp only [exec, reg] at born
      obtain rfl := Nat.le_antisymm (Nat.lt_succ_iff.mp born) unborn
      have blank := newStream_blank cfg s s.reg.nextID true
      refine ⟨rfl, ?_⟩
      simp only [exec, new]
      exact ⟨blank.inbuf, blank.buffered, blank.consumed, blank.wmu, blank.peerFIN,
        blank.localFIN, blank.closedLocal, blank.sent, blank.mailbox, blank.accepted⟩
  case acceptVet id delta metadata =>
    rcases acceptVet_made cfg c s id delta metadata with same | ⟨reg, new⟩
    · simp only [exec, same] at born
      exact absurd born (Nat.not_lt.mpr unborn)
    · simp only [exec, reg] at born
      obtain rfl := Nat.le_antisymm (Nat.lt_succ_iff.mp born) unborn
      refine ⟨rfl, ?_⟩
      simp only [exec, new]
      exact tuneWindows_blank cfg delta (newStream_blank cfg s id false)
  all_goals cases made

end UmuxBirth
