import Uio.Layer.HalfClose

/-!
The end of a layer's writing half is one token: with the caller of `CloseWrite`,
published, with whoever claimed it, or finished. Who holds it past the look at the
writers knows that none is inside, since the gate is shut; past the flush and the
look at the hold, that nothing was held then and nothing written is.
A published end whose layer has neither writers nor held bytes always has a section
that leads to another look, or a turn that is asked for.
-/
namespace LayerShut
open Interleaving LayerHalfClose

variable {flushes : Nat → Bool} {top i : Nat} {s s' : Stack} {a : Section} {more : List Section}
  {others owing : Multiset Section}

def bit (b : Bool) : Nat := if b then 1 else 0

def inDoor (i : Nat) : Section → Nat
  | .enterAgain j _ | .onWrite j | .exit j _ => if j = i then 1 else 0
  | _ => 0

def inside (i : Nat) : Section → Nat
  | .onWrite j | .exit j true => if j = i then 1 else 0
  | _ => 0

def holder (i : Nat) : Section → Nat
  | .shutPublish j | .shutOver j | .shutSwap j | .flushOp j true | .shutFlushed j | .shutHeld j
  | .shutAgain j | .shutDrop j | .shutEnd j => if j = i then 1 else 0
  | _ => 0

def uncounted (i : Nat) : Section → Nat
  | .shutsAdd j => if j = i then 1 else 0
  | _ => 0

def ending (i : Nat) : Section → Nat
  | .closeWriter j => if j = i then 1 else 0
  | _ => 0

def looker (i : Nat) : Section → Nat
  | .shutTry j | .shutClaim j | .shutLook j => if j = i then 1 else 0
  | _ => 0

def seen (i : Nat) : Section → Nat
  | .shutClaim j | .shutOver j | .shutSwap j | .flushOp j true | .shutFlushed j | .shutHeld j
  | .shutAgain j | .shutEnd j | .closeWriter j => if j = i then 1 else 0
  | _ => 0

def settled (i : Nat) : Section → Nat
  | .shutHeld j | .shutAgain j | .shutEnd j | .closeWriter j => if j = i then 1 else 0
  | _ => 0

def flushing (i : Nat) : Section → Nat
  | .flushOp j true | .shutFlushed j | .shutDrop j => if j = i then 1 else 0
  | _ => 0

def emptied (i : Nat) : Section → Nat
  | .shutEnd j | .closeWriter j => if j = i then 1 else 0
  | _ => 0

def lateW : Section → Nat
  | .enterCount _ true | .enterAgain _ true => 1
  | _ => 0

@[mk_iff] structure Token (i : Nat) (s : Stack) (owing : Multiset Section) : Prop where
  writers : (s.layers i).writers = weigh (inDoor i) owing
  token : bit (s.layers i).shutPending + weigh (holder i) owing + weigh (uncounted i) owing +
    bit (s.layers i).finished = bit (s.layers i).shut
  counted : s.counted.count i = bit (s.layers i).shutPending + weigh (holder i) owing
  ended : (s.layers i).ended + weigh (ending i) owing ≤ bit (s.layers i).finished
  looked : 0 < weigh (looker i) owing → (s.layers i).shut = true
  late : weigh lateW owing = 0 ∧ s.lateEntry = false

@[mk_iff] structure Safe (flushes : Nat → Bool) (i : Nat) (s : Stack) (owing : Multiset Section) :
    Prop where
  alone : 0 < weigh (seen i) owing → weigh (inside i) owing = 0
  done : flushes i = true → 0 < weigh (settled i) owing → (s.layers i).flushDone = true
  flushed : (s.layers i).shutFlushed = true → (s.layers i).flushDone = true ∨
    0 < weigh (flushing i) owing ∨ (s.layers i).finished = true
  empty : 0 < weigh (emptied i) owing → (s.layers i).written = 0 ∧ (s.layers i).found = 0
  taken : (s.layers i).held ≤ (s.layers i).found + (s.layers i).since

def turning : Section → Nat
  | .turnUser false | .turnEnd => 1
  | _ => 0

def waking : Section → Nat
  | .wake | .turnStart => 1
  | _ => 0

@[mk_iff] structure Asked (s : Stack) (owing : Multiset Section) : Prop where
  turning : s.inTurn = true → 0 < weigh turning owing
  asked : s.isOver = false → s.turnAsked = true → s.woken = true ∨ 0 < weigh waking owing

theorem callable_entry (legal : callable a = true) : entry a = true := by
  cases a <;> first | rfl | exact legal

theorem entry_plain (i : Nat) (legal : entry a = true) : inDoor i a = 0 ∧ holder i a = 0 ∧
    uncounted i a = 0 ∧ ending i a = 0 ∧ looker i a = 0 ∧ lateW a = 0 := by
  cases a <;> first | exact ⟨rfl, rfl, rfl, rfl, rfl, rfl⟩ | cases legal

theorem token_step (step : Step flushes top s a s' more) (held : Token i s (a ::ₘ others)) :
    Token i s' (↑more + others) := by
  rw [token_iff] at held ⊢
  simp only [weigh_cons, weigh_add, weigh_coe] at held ⊢
  cases step
  case userCalls b legal =>
    simp only [sum_map_cons, sum_map_nil, entry_plain i (callable_entry legal),
      Nat.zero_add, Nat.add_zero]
    exact held
  all_goals
    dsimp only [inDoor, holder, uncounted, ending, looker, lateW] at held
    simp only [sum_map_cons, sum_map_nil]
    try dsimp only [inDoor, holder, uncounted, ending, looker, lateW]
  all_goals simp only [Nat.zero_add, Nat.add_zero] at held ⊢
  all_goals try exact held
  all_goals
    try simp only [Stack.set, Function.update_apply, apply_ite Layer.shut, apply_ite Layer.writers,
      apply_ite Layer.shutPending, apply_ite Layer.finished, apply_ite Layer.ended, Layer.hold,
      Layer.look]
  all_goals grind -ring -linarith [bit]

theorem seen_le (i : Nat) (owing : Multiset Section) :
    weigh (seen i) owing ≤ weigh (looker i) owing + weigh (holder i) owing + weigh (ending i) owing := by
  have both : ∀ a ∈ owing, seen i a ≤ looker i a + holder i a + ending i a := by
    intro a _
    cases a <;> simp only [seen, looker, holder, ending] <;> grind -ring -linarith
  have total := Multiset.sum_map_le_sum_map (seen i)
    (fun a => looker i a + holder i a + ending i a) both
  simp only [Multiset.sum_map_add] at total
  exact total

theorem seen_shut (held : Token i s owing) (free : (s.layers i).shut = false) :
    weigh (seen i) owing = 0 := by
  have bound := seen_le i owing
  have looked := held.looked
  have token := held.token
  have ended := held.ended
  simp only [free, bit, Bool.false_eq_true, if_false, imp_false] at token looked ended
  omega

theorem inside_le (i : Nat) (owing : Multiset Section) :
    weigh (inside i) owing ≤ weigh (inDoor i) owing :=
  weigh_le (fun a => by
    cases a
    case exit j wrote => cases wrote <;> first | exact Nat.le_refl _ | exact Nat.zero_le _
    all_goals first | exact Nat.le_refl _ | exact Nat.zero_le _) owing

theorem emptied_le (i : Nat) (owing : Multiset Section) :
    weigh (emptied i) owing ≤ weigh (seen i) owing :=
  weigh_le (fun a => by cases a <;> first | exact Nat.le_refl _ | exact Nat.zero_le _) owing

theorem emptied_owns (i : Nat) (owing : Multiset Section) :
    weigh (emptied i) owing ≤ weigh (holder i) owing + weigh (ending i) owing := by
  have both : ∀ a ∈ owing, emptied i a ≤ holder i a + ending i a := by
    intro a _
    cases a <;> simp only [emptied, holder, ending] <;> grind -ring -linarith
  have total := Multiset.sum_map_le_sum_map (emptied i) (fun a => holder i a + ending i a) both
  simp only [Multiset.sum_map_add] at total
  exact total

theorem ending_le (i : Nat) (owing : Multiset Section) :
    weigh (ending i) owing ≤ weigh (seen i) owing ∧
      weigh (ending i) owing ≤ weigh (settled i) owing ∧
      weigh (ending i) owing ≤ weigh (emptied i) owing := by
  refine ⟨weigh_le ?_ owing, weigh_le ?_ owing, weigh_le ?_ owing⟩ <;>
    exact fun a => by cases a <;> first | exact Nat.le_refl _ | exact Nat.zero_le _

theorem flushing_le (i : Nat) (owing : Multiset Section) :
    weigh (flushing i) owing ≤ weigh (holder i) owing :=
  weigh_le (fun a => by
    cases a
    case flushOp j shutting => cases shutting <;> exact le_rfl
    all_goals first | exact Nat.le_refl _ | exact Nat.zero_le _) owing

theorem entry_calm (i : Nat) (legal : entry a = true) : seen i a = 0 ∧ inside i a = 0 ∧
    settled i a = 0 ∧ flushing i a = 0 ∧ emptied i a = 0 := by
  cases a <;> first | exact ⟨rfl, rfl, rfl, rfl, rfl⟩ | cases legal

theorem safe_step (step : Step flushes top s a s' more) (token : Token i s (a ::ₘ others))
    (held : Safe flushes i s (a ::ₘ others)) : Safe flushes i s' (↑more + others) := by
  have closed := seen_shut token
  have inner := inside_le i others
  have last := emptied_le i others
  have owns := emptied_owns i others
  have flusher := flushing_le i others
  rw [safe_iff] at held ⊢
  rw [token_iff] at token
  simp only [weigh_cons, weigh_add, weigh_coe] at held token closed ⊢
  cases step
  case userCalls b legal =>
    simp only [sum_map_cons, sum_map_nil, entry_calm i (callable_entry legal),
      Nat.zero_add, Nat.add_zero]
    exact held
  all_goals
    dsimp only [seen, inside, settled, flushing, emptied, inDoor, holder, uncounted, ending, looker,
      lateW] at held token closed
    simp only [sum_map_cons, sum_map_nil]
    try dsimp only [seen, inside, settled, flushing, emptied]
  all_goals simp only [Nat.zero_add, Nat.add_zero] at held ⊢
  all_goals try exact held
  all_goals
    try simp only [Stack.set, Function.update_apply, apply_ite Layer.flushDone,
      apply_ite Layer.shutFlushed, apply_ite Layer.finished, apply_ite Layer.written,
      apply_ite Layer.found, apply_ite Layer.since, apply_ite Layer.held, Layer.hold, Layer.look]
  all_goals grind -ring -linarith [bit, Layer.held]

/-- Inside the shut-down step before its claim, a write's exit, a flush or a turn, with a look
    at the layer's end still to come. -/
def driver (i : Nat) : Section → Nat
  | .shutTry j | .shutClaim j | .shutLook j | .exitLook j => if j = i then 1 else 0
  | .flushLook | .request true | .requestClaim | .wake | .turnStart | .turnLook | .turnIn | .turnUser _
  | .turnEnd | .settleGate | .settle | .finishShuts | .close true => 1
  | .shutScan j => if i < j then 1 else 0
  | _ => 0

def Total (s : Stack) : Prop := s.shutsPending = s.counted.length

def Driven (top i : Nat) (s : Stack) (owing : Multiset Section) : Prop :=
  s.isOver = false → i ≤ top → (s.layers i).shutPending = true → (s.layers i).writers = 0 →
    (s.layers i).held = 0 → s.woken = true ∨ 0 < weigh (driver i) owing

theorem entry_idle (legal : entry a = true) : turning a = 0 ∧ waking a = 0 := by
  cases a <;> first | exact ⟨rfl, rfl⟩ | cases legal

theorem asked_step (step : Step flushes top s a s' more) (held : Asked s (a ::ₘ others)) :
    Asked s' (↑more + others) := by
  rw [asked_iff] at held ⊢
  simp only [weigh_cons, weigh_add, weigh_coe] at held ⊢
  cases step
  case userCalls b legal =>
    simp only [sum_map_cons, sum_map_nil, entry_idle (callable_entry legal),
      Nat.zero_add, Nat.add_zero]
    exact held
  all_goals
    dsimp only [turning, waking] at held
    simp only [sum_map_cons, sum_map_nil]
    try dsimp only [turning, waking]
  all_goals simp only [Nat.zero_add, Nat.add_zero] at held ⊢
  all_goals try exact held
  all_goals grind -ring -linarith

theorem total_erase (held : Total s) (member : i ∈ s.counted) :
    s.shutsPending - 1 = ((s.counted.erase i).length : Int) := by
  have some := List.length_pos_of_mem member
  rw [List.length_erase_of_mem member, held]
  omega

theorem holder_counted (held : Token i s owing) (holds : 0 < weigh (holder i) owing) :
    i ∈ s.counted := by
  have counted := held.counted
  exact List.count_pos_iff.mp (by omega)

theorem total_step (step : Step flushes top s a s' more) (tokens : ∀ i, Token i s (a ::ₘ others))
    (held : Total s) : Total s' := by
  cases step
  case shutsAdd i =>
    rw [Total] at held ⊢
    simp only [held, List.length_cons]
    omega
  case shutDrop i | shutEnd i =>
    exact total_erase held (holder_counted (tokens i) (by simp [weigh_cons, holder]))
  all_goals exact held

theorem pending_counted (token : Token i s owing) (total : Total s)
    (owed : (s.layers i).shutPending = true) : 0 < s.shutsPending := by
  have counted := token.counted
  have bound := List.count_le_length (a := i) (l := s.counted)
  simp only [owed, bit, if_true] at counted
  rw [Total] at total
  omega

theorem turning_le (i : Nat) (owing : Multiset Section) :
    weigh turning owing ≤ weigh (driver i) owing :=
  weigh_le (fun a => by
    cases a
    case turnUser settling => cases settling <;> first | exact Nat.le_refl _ | exact Nat.zero_le _
    all_goals first | exact Nat.le_refl _ | exact Nat.zero_le _) owing

theorem waking_le (i : Nat) (owing : Multiset Section) :
    weigh waking owing ≤ weigh (driver i) owing :=
  weigh_le (fun a => by cases a <;> first | exact Nat.le_refl _ | exact Nat.zero_le _) owing

theorem driven_step (step : Step flushes top s a s' more) (token : Token i s (a ::ₘ others))
    (total : Total s) (asked : Asked s (a ::ₘ others)) (held : Driven top i s (a ::ₘ others)) :
    Driven top i s' (↑more + others) := by
  have pending := pending_counted token total
  have inTurn := turning_le i others
  have woken := waking_le i others
  rw [Driven] at held ⊢
  rw [token_iff] at token
  rw [asked_iff] at asked
  simp only [weigh_cons, weigh_add, weigh_coe] at held token asked ⊢
  cases step
  case userCalls b legal =>
    simp only [sum_map_cons, sum_map_nil]
    have plain : driver i .user = 0 := rfl
    grind -ring -linarith
  all_goals
    dsimp only [driver, inDoor, holder, uncounted, ending, looker, lateW, turning, waking]
      at held token asked
    simp only [sum_map_cons, sum_map_nil]
    try dsimp only [driver]
  all_goals simp only [Nat.zero_add, Nat.add_zero] at held ⊢
  all_goals try exact held
  all_goals
    try simp only [Stack.set, Function.update_apply, Layer.held, apply_ite Layer.shutPending,
      apply_ite Layer.writers, apply_ite Layer.written, apply_ite Layer.own, Layer.hold,
      Layer.look] at held ⊢
  all_goals grind -ring -linarith [bit, Layer.held]

section Runs

variable {q : Pool Stack Section}

theorem token_run (i : Nat) (run : Reachable (program flushes top) ⟨.fresh, []⟩ q) :
    Token i q.state (owed q) := by
  refine owed_invariant (Token i) ?_ ?_ ?_ run
  · constructor <;> simp [owed, Stack.fresh, Layer.fresh, bit]
  · intro s others a legal held
    rw [token_iff] at held ⊢
    simp only [weigh_cons, entry_plain i legal, Nat.zero_add]
    exact held
  · intro s others a c _ _ held
    exact token_step (exec_step flushes top c a s) held

theorem safe_run (i : Nat) (run : Reachable (program flushes top) ⟨.fresh, []⟩ q) :
    Safe flushes i q.state (owed q) := by
  refine owed_invariant_given (Token i) (Safe flushes i) (fun _ => token_run i) ?_ ?_ ?_ run
  · constructor <;> simp [owed, Stack.fresh, Layer.fresh, Layer.held]
  · intro s others a legal held
    rw [safe_iff] at held ⊢
    simp only [weigh_cons, entry_calm i legal, Nat.zero_add]
    exact held
  · intro s others a c _ _ token held
    exact safe_step (exec_step flushes top c a s) token held

theorem asked_run (run : Reachable (program flushes top) ⟨.fresh, []⟩ q) :
    Asked q.state (owed q) := by
  refine owed_invariant Asked ?_ ?_ ?_ run
  · constructor <;> simp [Stack.fresh]
  · intro s others a legal held
    rw [asked_iff] at held ⊢
    simp only [weigh_cons, entry_idle legal, Nat.zero_add]
    exact held
  · intro s others a c _ _ held
    exact asked_step (exec_step flushes top c a s) held

theorem total_run (run : Reachable (program flushes top) ⟨.fresh, []⟩ q) : Total q.state := by
  refine owed_invariant_given (fun s owing => ∀ i, Token i s owing) (fun s _ => Total s)
    (fun _ run i => token_run i run) rfl (fun _ _ _ _ held => held) ?_ run
  intro s others a c _ _ tokens held
  exact total_step (exec_step flushes top c a s) tokens held

theorem driven_run (i : Nat) (run : Reachable (program flushes top) ⟨.fresh, []⟩ q) :
    Driven top i q.state (owed q) := by
  refine owed_invariant_given (fun s owing => Token i s owing ∧ Total s ∧ Asked s owing)
    (Driven top i) (fun _ run => ⟨token_run i run, total_run run, asked_run run⟩) ?_ ?_ ?_ run
  · intro _ _ pending
    cases pending
  · intro s others a _ held running inside pending empty idle
    rw [weigh_cons]
    exact (held running inside pending empty idle).imp_right (Nat.lt_add_left _)
  · intro s others a c _ _ known held
    exact driven_step (exec_step flushes top c a s) known.1 known.2.1 known.2.2 held

end Runs

/-- `ended` counts the runs of the layer's `CloseWrite` step and `ending` finds one about to
    run: the shut-down's last look found nothing held, and only what was taken in since is. A
    write that began behind the shut gate would be noted in `lateEntry`. The end is pending from
    the gate's shutting until it is passed down or given up. -/
theorem half_close_kept (i : Nat) {q : Pool Stack Section}
    (run : Reachable (program flushes top) ⟨.fresh, []⟩ q) :
    (q.state.layers i).ended + weigh (ending i) (owed q) ≤ 1 ∧
    (0 < weigh (ending i) (owed q) → weigh (inside i) (owed q) = 0 ∧
      (flushes i = true → (q.state.layers i).flushDone = true) ∧ (q.state.layers i).written = 0 ∧
      (q.state.layers i).found = 0 ∧ (q.state.layers i).held ≤ (q.state.layers i).since) ∧
    q.state.lateEntry = false ∧ (q.state.isOver = false → i ≤ top → (q.state.layers i).shut = true →
      (q.state.layers i).finished = false → (q.state.layers i).writers = 0 →
      (q.state.layers i).held = 0 → q.state.woken = true ∨ 0 < weigh (driver i) (owed q) ∨
        0 < weigh (holder i) (owed q) + weigh (uncounted i) (owed q)) := by
  have token := token_run i run
  have safe := safe_run i run
  refine ⟨?_, ?_, token.late.2, ?_⟩
  · have ended := token.ended
    rw [bit] at ended
    split at ended <;> omega
  · intro about
    have known := ending_le i (owed q)
    obtain ⟨written, found⟩ := safe.empty (by omega)
    have taken := safe.taken
    rw [found, Nat.zero_add] at taken
    exact ⟨safe.alone (by omega), fun own => safe.done own (by omega), written, found, taken⟩
  · intro running inside shut unfinished empty idle
    have tokens := token.token
    have driven := driven_run i run running inside
    cases pending : (q.state.layers i).shutPending with
    | true => exact (driven pending empty idle).imp_right Or.inl
    | false =>
      simp only [pending, shut, unfinished, bit, Bool.false_eq_true, if_false, if_true] at tokens
      exact Or.inr (Or.inr (by omega))

/-- A writer is inside when the half close is asked for; the turn its exit asks for passes the
    end down. -/
def endedByTurn : List (Move Section Choice) :=
  List.flatten [[.start (.openUp 0)], runs 0 1 {}, [.start (.write 0)], runs 1 4 {},
    [.start (.closeWrite 0)], runs 2 5 {}, runs 1 5 {}, [.start .turn], runs 3 19 {}]

theorem half_close_kept_by_turn : ∃ q, (Reachable (program (fun _ => true) 0) ⟨.fresh, []⟩ q ∧
      q.threads = [[], [], [], [.closeWriter 0, .shutScan 0, .turnDone]]) ∧
    weigh (inside 0) (owed q) = 0 ∧ (q.state.layers 0).flushDone = true ∧
    (q.state.layers 0).written = 0 ∧ (q.state.layers 0).held ≤ (q.state.layers 0).since := by
  obtain ⟨q, run, checked⟩ := replay_reaches (P := program (fun _ => true) 0) (p := ⟨.fresh, []⟩)
    endedByTurn (fun q => decide (q.threads = [[], [], [], [.closeWriter 0, .shutScan 0, .turnDone]]))
    (by decide +kernel)
  have threads := of_decide_eq_true checked
  have about : 0 < weigh (ending 0) (owed q) := by
    rw [owed, threads]
    decide
  obtain ⟨alone, flushed, written, -, held⟩ := (half_close_kept 0 run).2.1 about
  exact ⟨q, ⟨run, threads⟩, alone, flushed rfl, written, held⟩

/-- Between the look at the hold and the end's way down, a turn makes the layer hold bytes of
    its own. -/
def heldAfterLook : List (Move Section Choice) :=
  List.flatten [[.start (.openUp 0)], runs 0 1 {}, [.start (.closeWrite 0)], runs 1 9 {},
    [.start .turn], runs 2 4 {}, [.run 2 { more := true, own := 5 }], runs 1 1 {}]

theorem half_close_over_held : ∃ q, Reachable (program (fun _ => false) 0) ⟨.fresh, []⟩ q ∧
    q.threads[1]? = some [Section.closeWriter 0] ∧ 0 < (q.state.layers 0).held := by
  obtain ⟨q, run, checked⟩ := replay_reaches (P := program (fun _ => false) 0) (p := ⟨.fresh, []⟩)
    heldAfterLook
    (fun q => decide (q.threads[1]? = some [Section.closeWriter 0] ∧ 0 < (q.state.layers 0).held))
    (by decide +kernel)
  exact ⟨q, run, of_decide_eq_true checked⟩

end LayerShut
