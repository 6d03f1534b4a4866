import Uio.Uws.CloseFacts

/-!
The sender registers the Close frame's receipt while the transport reports the receipts of
earlier Pings and then the Close's. Reports come in the order the receipts were handed out,
so by their number the Close's own report is told from that of a Ping, even where the
receipts themselves cannot be: the code compares their values.
-/
namespace UwsRendezvous
open Interleaving UwsWrites UwsWriteSteps UwsCloseFacts

variable {s s' : State} {a b : Section} {more : List Section} {others owing : Multiset Section}
  {r n : SendReceipt} {pings : List SendReceipt}

def registering (a : Section) : Nat := (registers a).isSome.toNat

def storing (a : Section) : Nat := (proves a).toNat

def InOrder (_ : Choice) (a : Section) (s : State) : Prop :=
  ∀ r, a = .onSent r → s.receipts[s.fired.length]? = some r

structure Handed (s : State) : Prop where
  close : ∀ r, some r ∈ s.closeReceipts → r ∈ s.receipts
  fired : s.fired ⊆ s.receipts
  most : s.fired.length ≤ s.receipts.length

/-- How far the sender of the Close and the reports are, `pings` of which are due before the
    Close's own. The Close is still to be registered, is registered and waits, is about to be
    marked done, or is marked. -/
@[mk_iff] structure Meeting (r : SendReceipt) (pings : Nat) (receipt earlySend : Option SendReceipt)
    (done : Bool) (fired register store : Nat) : Prop where
  one : register + store + (receipt == some r).toNat + done.toNat = 1
  either : receipt = none ∨ receipt = some r
  waits : receipt = some r → fired ≤ pings
  memo : 0 < register → (earlySend = some r ↔ pings < fired)
  met : 0 < store ∨ done = true → pings < fired

structure Rendezvous (s : State) (register store : Nat) : Prop where
  unsent : s.closeReceipts = [] →
    s.receipt = none ∧ s.done = false ∧ register = 0 ∧ store = 0
  meets : ∀ pings r, s.closeReceipts = [some r] → s.receipts = pings ++ [r] → r ∉ pings →
    Meeting r pings.length s.receipt s.earlySend s.done s.fired.length register store

/-- A report in order is a Ping's, or the Close's own as the last one. -/
theorem report_place {i : Nat} (found : (pings ++ [r])[i]? = some n) :
    (i < pings.length ∧ n ∈ pings) ∨ (i = pings.length ∧ n = r) := by
  rcases Nat.lt_trichotomy i pings.length with before | rfl | after
  · rw [List.getElem?_append_left before] at found
    exact .inl ⟨before, List.mem_of_getElem? found⟩
  · rw [List.getElem?_concat_length, Option.some.injEq] at found
    exact .inr ⟨rfl, found.symm⟩
  · rw [List.getElem?_eq_none (by simp; omega)] at found
    cases found

theorem handed_step {c : Choice} (step : Step true s a s' more) (ordered : InOrder c a s)
    (held : Handed s) : Handed s' := by
  cases step
  case onSent n _ | onSentEarly n _ =>
    have place := ordered n rfl
    exact ⟨held.close, List.cons_subset.mpr ⟨List.mem_of_getElem? place, held.fired⟩,
      (List.getElem?_eq_some_iff.mp place).1⟩
  case writeTracked r _ =>
    exact ⟨fun n close => List.mem_append_left _ (held.close n close),
      fun n fired => List.mem_append_left _ (held.fired fired),
      held.most.trans (List.length_append ▸ Nat.le_add_right _ _)⟩
  case writeTrackedClose r _ | retryTracked r =>
    refine ⟨?_, fun n fired => List.mem_append_left _ (held.fired fired),
      held.most.trans (List.length_append ▸ Nat.le_add_right _ _)⟩
    intro n close
    rcases List.mem_cons.mp close with rfl | close
    · exact List.mem_append_right _ (List.mem_singleton.mpr rfl)
    · exact List.mem_append_left _ (held.close n close)
  all_goals exact ⟨held.close, held.fired, held.most⟩

variable {register store : Nat}

theorem rendezvous_ping {x : Option SendReceipt} (held : Rendezvous s register store)
    (handed : Handed s) : Rendezvous { s with receipts := s.receipts ++ x.toList } register store := by
  refine ⟨held.unsent, ?_⟩
  intro pings r one last fresh
  cases x with
  | none => exact held.meets pings r one (by simpa using last) fresh
  | some x =>
    have before : s.receipts = pings := (List.append_inj' last rfl).1
    have member := handed.close r (by simp [show s.closeReceipts = _ from one])
    exact absurd (before ▸ member) fresh

theorem rendezvous_close {x : Option SendReceipt} (held : Rendezvous s register store)
    (handed : Handed s) (early : ∀ r, s.earlySend = some r → r ∈ s.receipts) :
    Rendezvous { s with
      receipts := s.receipts ++ x.toList
      closeReceipts := x :: s.closeReceipts } (1 + register) store := by
  refine ⟨fun none => (by cases none), ?_⟩
  intro pings r one last fresh
  obtain ⟨rfl, first⟩ := List.cons_eq_cons.mp one
  obtain rfl : s.receipts = pings := (List.append_inj' last rfl).1
  obtain ⟨unset, undone, rfl, rfl⟩ := held.unsent first
  have late : s.earlySend ≠ some r := fun found => fresh (early r found)
  have most := handed.most
  rw [meeting_iff]
  simp only [unset, undone]
  refine ⟨rfl, .inl trivial, nofun, fun _ => ⟨fun found => absurd found late, ?_⟩, by simp⟩
  omega

/-- A section that registers or stores finds the Close handed over. -/
theorem Rendezvous.handed (held : Rendezvous s register store) (mine : 0 < register + store) :
    s.closeReceipts ≠ [] := by
  intro none
  obtain ⟨_, _, _, _⟩ := held.unsent none
  omega

theorem rendezvous_registers (held : Rendezvous s (1 + register) store)
    (carried : some n ∈ s.closeReceipts) :
    if s.earlySend = some n then Rendezvous { s with earlySend := none } register (1 + store)
    else Rendezvous { s with receipt := some n } register store := by
  have sent := held.handed (by omega)
  have meets : ∀ pings r, s.closeReceipts = [some r] → s.receipts = pings ++ [r] → r ∉ pings →
      n = r ∧ Meeting r pings.length s.receipt s.earlySend s.done s.fired.length (1 + register)
        store := by
    intro pings r only last fresh
    exact ⟨by simpa [only] using carried, held.meets pings r only last fresh⟩
  split_ifs with early
  all_goals
    refine ⟨fun none => absurd none sent, fun pings r only last fresh => ?_⟩
    obtain ⟨rfl, met⟩ := meets pings r only last fresh
    rw [meeting_iff] at met ⊢
    grind

theorem rendezvous_stores (held : Rendezvous s register (1 + store)) :
    Rendezvous { s with done := true } register store := by
  refine ⟨fun none => absurd none (held.handed (by omega)), fun pings r only last fresh => ?_⟩
  have met := held.meets pings r only last fresh
  rw [meeting_iff] at met ⊢
  grind

theorem rendezvous_sent (held : Rendezvous s register store)
    (place : s.receipts[s.fired.length]? = some n) :
    if s.receipt = some n then
      Rendezvous { s with receipt := none, fired := n :: s.fired } register (1 + store)
    else Rendezvous { s with earlySend := some n, fired := n :: s.fired } register store := by
  have meets : ∀ pings r, s.closeReceipts = [some r] → s.receipts = pings ++ [r] → r ∉ pings →
      (n = r ↔ s.fired.length = pings.length) ∧ s.fired.length ≤ pings.length ∧
      Meeting r pings.length s.receipt s.earlySend s.done s.fired.length register store := by
    intro pings r only last fresh
    rw [last] at place
    refine ⟨?_, ?_, held.meets pings r only last fresh⟩ <;> grind [report_place place]
  split_ifs with same
  · refine ⟨fun none => ?_, fun pings r only last fresh => ?_⟩
    · rw [(held.unsent none).1] at same
      cases same
    · obtain ⟨own, most, met⟩ := meets pings r only last fresh
      rw [meeting_iff] at met ⊢
      grind
  · refine ⟨held.unsent, fun pings r only last fresh => ?_⟩
    obtain ⟨own, most, met⟩ := meets pings r only last fresh
    rw [meeting_iff] at met ⊢
    grind

theorem rendezvous_pure (step : Pure true s a more) (held : Rendezvous s (registering a + register)
    (storing a + store)) :
    Rendezvous s ((more.map registering).sum + register) ((more.map storing).sum + store) := by
  cases step <;> exact held

theorem rendezvous_step {c : Choice} (step : Step true s a s' more) (ordered : InOrder c a s)
    (settled : Settled s) (mine : Carries true s a) (handed : Handed s)
    (held : Rendezvous s (registering a + register) (storing a + store)) :
    Rendezvous s' ((more.map registering).sum + register) ((more.map storing).sum + store) := by
  have early : ∀ r, s.earlySend = some r → r ∈ s.receipts :=
    fun r found => handed.fired (settled.early r found)
  cases step
  case stays step => exact rendezvous_pure step held
  case writeTracked r _ =>
    have written := rendezvous_ping (x := r) held handed
    exact ⟨written.unsent, written.meets⟩
  case setReceiptZero | retryReceiptZero =>
    -- A zero receipt is not the Close's when that has one.
    have carried := mine.registered none rfl
    refine ⟨fun none => absurd none (held.handed (by simp [registering, registers])), ?_⟩
    intro pings r only
    simp [show s.closeReceipts = _ from only] at carried
  all_goals
    simp only [registering, storing, registers, proves, sum_map_cons, sum_map_nil, Option.isSome,
      Bool.toNat_true, Bool.toNat_false, Nat.zero_add, Nat.add_zero] at held ⊢
  case writeTrackedClose r _ | retryTracked r =>
    have written := rendezvous_close (x := r) held handed early
    exact ⟨written.unsent, written.meets⟩
  case setReceiptEarly found | retryReceiptEarly found =>
    have registered := rendezvous_registers held (mine.registered _ rfl)
    rwa [if_pos found] at registered
  case setReceipt late | retryReceipt late =>
    have registered := rendezvous_registers held (mine.registered _ rfl)
    rwa [if_neg late] at registered
  case setDone | storeDone | retryDone => exact rendezvous_stores held
  case onSent n same =>
    have reported := rendezvous_sent held (ordered n rfl)
    rwa [if_pos same] at reported
  case onSentEarly n other =>
    have reported := rendezvous_sent held (ordered n rfl)
    rwa [if_neg other] at reported
  all_goals exact ⟨held.unsent, held.meets⟩

def slow : Job → Bool
  | .fast _ => false
  | _ => true

def Next.ends : Next → Bool
  | .tail _ | .unlock _ _ => true
  | _ => false

/-- Bound to try the transport's close: under the write lock, whose release tries it, or on
    the way from a retry, a report or a request of the close. `batchMessageLocked` alone
    unlocks without, and does not serve transports with receipts. -/
def tries : Section → Bool
  | .lock job | .enter job | .queue job | .closeQueued job | .route job | .append job
  | .track job | .write job _ | .rollback job _ _ | .writeTracked job | .setReceipt job _
  | .setDone job | .markSent job | .result job _ => slow job
  | .flushTake next job | .flushCount next job _ | .flushWrite next job _
  | .flushRollback next job _ _ | .flushed next job _ => Next.ends next || slow job
  | .quickFlags _ _ | .sendChecks _ | .deferClose _ | .closingMark _ _ _ | .rawFlush _ _
  | .unlockCheck _ _ _ | .unlock _ _ _ | .closeFlush _ | .tryClose | .claimLook | .claim
  | .retryDone | .retryMark => true
  | _ => false

def trying (a : Section) : Nat := (tries a).toNat

/-- A close that could be claimed is claimed already, or somebody is bound to try. -/
def Tried (s : State) (owing : Multiset Section) : Prop :=
  s.phase = .pending → s.done = true → s.closeFrameDeferred = false →
    s.rawClosed = true ∨ 0 < weigh trying owing

theorem trying_pure (step : Pure true s a more) (pending : s.phase = .pending)
    (done : s.done = true) (sent : s.closeFrameDeferred = false) :
    trying a ≤ (more.map trying).sum := by
  cases step
  case tryNot idle => exact absurd pending idle
  case claimNotYet waits => simp [sent] at waits
  case claimRefused refused => simp [claimable, pending, done, sent] at refused
  case quickOn plain _ _ _ => cases plain
  case flushedFails ends => rcases ends with rfl | rfl <;> exact Nat.le_refl _
  case closeFlush => exact Nat.le_succ 1
  all_goals first
    | exact Nat.le_refl _
    | exact Nat.zero_le _
    | exact Bool.toNat_le _

def marker : Section → Option Job
  | .setReceipt job _ | .setDone job | .markSent job => some job
  | _ => none

theorem slow_of_isClose {job : Job} (close : job.isClose = true) : slow job = true := by
  cases job <;> first | rfl | cases close

theorem marker_step (step : Step true s a s' more)
    (mine : ∀ job, marker a = some job → slow job = true) :
    ∀ b ∈ more, ∀ job, marker b = some job → slow job = true := by
  intro b member job marks
  cases step
  case stays step =>
    cases step <;> simp only [List.mem_cons, List.not_mem_nil, or_false] at member <;>
      rcases member with rfl | rfl | rfl <;> cases marks
  case appendClose close | writeClose close | writeTrackedClose close =>
    rcases List.mem_singleton.mp member with rfl
    cases marks
    exact slow_of_isClose close
  all_goals
    simp only [List.mem_cons, List.not_mem_nil, or_false] at member
  case setReceiptEarly | setReceiptZero | setReceipt | setDone =>
    subst member
    exact mine job marks
  all_goals rcases member with rfl | rfl | rfl <;> cases marks

/-- What a step gives away of the bound it has to hand on. -/
theorem Tried.step (held : Tried s (a ::ₘ others)) (kept : s'.phase = s.phase ∧ s'.done = s.done ∧
      s'.closeFrameDeferred = s.closeFrameDeferred ∧ (s.rawClosed = true → s'.rawClosed = true))
    (hands : trying a ≤ (more.map trying).sum) : Tried s' (↑more + others) := by
  obtain ⟨phase, done, deferred, closed⟩ := kept
  intro pending did sent
  rcases held (phase ▸ pending) (done ▸ did) (deferred ▸ sent) with shut | trier
  · exact .inl (closed shut)
  · rw [weigh_cons] at trier
    rw [weigh_add, weigh_coe]
    omega

theorem tried_of_pushed (hands : 0 < (more.map trying).sum) : Tried s (↑more + others) := by
  intro _ _ _
  rw [weigh_add, weigh_coe]
  omega

theorem tried_step (step : Step true s a s' more) (paired : a = .storeDone → .tryClose ∈ others)
    (marks : ∀ job, marker a = some job → slow job = true) (held : Tried s (a ::ₘ others)) :
    Tried s' (↑more + others) := by
  cases step
  case stays step =>
    intro pending done sent
    exact held.step ⟨rfl, rfl, rfl, id⟩ (trying_pure step pending done sent) pending done sent
  case storeDone =>
    intro _ _ _
    rw [weigh_add, weigh_coe]
    have behind := weigh_of_mem trying (paired rfl)
    have one : trying .tryClose = 1 := rfl
    omega
  case claim | claimAbort => exact fun claimed => (by cases claimed)
  case deferClose => exact fun _ _ sent => (by cases sent)
  case requestTransportClose | retryMark | retryDone => exact tried_of_pushed Nat.one_pos
  case markSent job | setDone job =>
    refine tried_of_pushed ?_
    simp [trying, tries, marks job rfl]
  case unlockFast | markClosing | heartbeatClosing => exact held.step ⟨rfl, rfl, rfl, id⟩ (Nat.zero_le _)
  all_goals first
    | exact fun _ _ _ => .inl rfl
    | exact held.step ⟨rfl, rfl, rfl, id⟩ (Nat.le_refl _)
    | exact held.step ⟨rfl, rfl, rfl, id⟩ (Nat.zero_le _)
    | exact held.step ⟨rfl, rfl, rfl, id⟩ (by simp [trying, tries])

/-- A report of the wire is a thread of its own, and tries the close after its mark. -/
def Reporter (_ : State) (t : List Section) : Prop :=
  (∀ r, .onSent r ∈ t → t = [.onSent r]) ∧ (.storeDone ∈ t → t = [.storeDone, .tryClose])

def reporting : Section → Bool
  | .onSent _ | .storeDone => true
  | _ => false

theorem reporting_step (step : Step true s a s' more) (other : reporting a = false) :
    ∀ b ∈ more, reporting b = false := by
  intro b member
  cases step
  case stays step =>
    cases step <;> simp only [List.mem_cons, List.not_mem_nil, or_false] at member <;>
      rcases member with rfl | rfl | rfl <;> rfl
  case onSent | onSentEarly => cases other
  all_goals
    simp only [List.mem_cons, List.not_mem_nil, or_false] at member <;>
      rcases member with rfl | rfl | rfl <;> rfl

theorem reporter_of_quiet {t : List Section} (quiet : ∀ b ∈ t, reporting b = false) :
    Reporter s t := by
  refine ⟨fun r member => ?_, fun member => ?_⟩
  all_goals
    have reports := quiet _ member
    cases reports

theorem reporter_step {rest : List Section} (step : Step true s a s' more)
    (held : Reporter s (a :: rest)) : Reporter s' (more ++ rest) := by
  by_cases other : reporting a = true
  · cases step
    case onSent r _ =>
      obtain rfl : rest = [] := (List.cons_eq_cons.mp (held.1 r List.mem_cons_self)).2
      exact ⟨fun r member => (by simp at member), fun _ => rfl⟩
    case onSentEarly r _ =>
      obtain rfl : rest = [] := (List.cons_eq_cons.mp (held.1 r List.mem_cons_self)).2
      exact reporter_of_quiet (fun b member => absurd member List.not_mem_nil)
    case storeDone =>
      obtain rfl : rest = [.tryClose] := (List.cons_eq_cons.mp (held.2 List.mem_cons_self)).2
      exact reporter_of_quiet (by simp [reporting])
    case stays step => cases step <;> cases other
    all_goals cases other
  · apply reporter_of_quiet
    intro b member
    rcases List.mem_append.mp member with pushed | behind
    · exact reporting_step step (Bool.of_not_eq_true other) b pushed
    · apply Bool.of_not_eq_true
      intro reports
      apply other
      cases b
      case onSent r =>
        obtain ⟨rfl, _⟩ := List.cons_eq_cons.mp (held.1 r (List.mem_cons_of_mem a behind))
        rfl
      case storeDone =>
        obtain ⟨rfl, _⟩ := List.cons_eq_cons.mp (held.2 (List.mem_cons_of_mem a behind))
        rfl
      all_goals cases reports

theorem exists_of_tally {kind : Section → Bool}
    (positive : 0 < weigh (fun a => (kind a).toNat) owing) : ∃ a ∈ owing, kind a = true := by
  obtain ⟨a, member, heavy⟩ := Monitor.exists_of_weigh_pos positive
  refine ⟨a, member, Bool.of_not_eq_false ?_⟩
  intro off
  rw [off] at heavy
  exact Nat.lt_irrefl 0 heavy

section Runs

variable {ok : Choice → Section → State → Prop} {h : Nat} {q : Pool State Section}

theorem reporter_run (run : Run (program true) ok (start true h) q) :
    ∀ t ∈ q.threads, Reporter q.state t := by
  refine threads_invariant Reporter (fun t none => absurd none List.not_mem_nil) ?_ ?_ run
  · intro s a entered
    cases a
    case onSent r => exact ⟨fun n member => by rw [List.mem_singleton.mp member], by simp⟩
    all_goals first
      | (cases entered; done)
      | exact reporter_of_quiet (by simp [reporting])
  · intro s before after a rest c _ ready _ held
    have step : Step true s a _ _ := exec_step true c s a ready
    refine ⟨reporter_step step (held _ (by simp)), ?_⟩
    intro t member
    refine held t ?_
    rcases List.mem_append.mp member with earlier | later
    · exact List.mem_append_left _ earlier
    · exact List.mem_append_right _ (List.mem_cons_of_mem _ later)

theorem paired_run (run : Run (program true) ok (start true h) q)
    (stores : .storeDone ∈ owed q) : .tryClose ∈ owed q := by
  obtain ⟨t, thread, member⟩ := List.mem_flatten.mp (Multiset.mem_coe.mp stores)
  refine Multiset.mem_coe.mpr (List.mem_flatten.mpr ⟨t, thread, ?_⟩)
  rw [(reporter_run run t thread).2 member]
  exact List.mem_cons_of_mem _ (List.mem_singleton.mpr rfl)

theorem marker_run (run : Run (program true) ok (start true h) q) :
    ∀ a ∈ owed q, ∀ job, marker a = some job → slow job = true := by
  refine (owed_carries (fun _ => True) (fun _ a => ∀ job, marker a = some job → slow job = true)
    trivial (by rintro _ ⟨⟩) ?_ ?_ run).2
  · intro s a _ entered job marks
    cases a <;> first | (cases marks; done) | cases entered
  · intro s a c ready _ _ mine
    exact ⟨trivial, fun b other => other, marker_step (exec_step true c s a ready) mine⟩

theorem tried_run (run : Run (program true) ok (start true h) q) : Tried q.state (owed q) := by
  refine owed_invariant_given
    (fun _ owing => (.storeDone ∈ owing → .tryClose ∈ owing) ∧
      ∀ a ∈ owing, ∀ job, marker a = some job → slow job = true) Tried
    (fun r before => ⟨paired_run before, marker_run before⟩) (fun pending => (by cases pending)) ?_ ?_ run
  · intro s others a _ held pending done sent
    rw [weigh_cons]
    exact (held pending done sent).imp id (Nat.add_pos_right _)
  · intro s others a c ready _ facts held
    refine tried_step (exec_step true c s a ready) ?_
      (facts.2 a (Multiset.mem_cons_self a others)) held
    rintro rfl
    simpa using facts.1 (Multiset.mem_cons_self _ others)

theorem handed_run (run : Run (program true) InOrder (start true h) q) : Handed q.state := by
  refine owed_invariant (fun s _ => Handed s)
    ⟨fun r none => absurd none List.not_mem_nil, List.nil_subset _, Nat.le_refl _⟩
    (fun _ _ _ _ held => held) ?_ run
  intro s _ a c ready ordered held
  exact handed_step (exec_step true c s a ready) ordered held

theorem rendezvous_run (run : Run (program true) InOrder (start true h) q) :
    Rendezvous q.state (weigh registering (owed q)) (weigh storing (owed q)) := by
  refine owed_invariant_given (fun s owing => (Settled s ∧ ∀ a ∈ owing, Carries true s a) ∧ Handed s)
    (fun s owing => Rendezvous s (weigh registering owing) (weigh storing owing))
    (fun r before => ⟨carries_run before, handed_run before⟩) ?_ ?_ ?_ run
  · exact ⟨fun _ => ⟨rfl, rfl, rfl, rfl⟩, fun pings r none => (by cases none)⟩
  · intro s others a entered held
    have quiet : registering a = 0 ∧ storing a = 0 := by
      cases a <;> first | exact ⟨rfl, rfl⟩ | cases entered
    rw [weigh_cons, weigh_cons, quiet.1, quiet.2, Nat.zero_add, Nat.zero_add]
    exact held
  · intro s others a c ready ordered facts held
    rw [weigh_cons, weigh_cons] at held
    rw [weigh_add, weigh_coe, weigh_add, weigh_coe]
    exact rendezvous_step (exec_step true c s a ready) ordered facts.1.1
      (facts.1.2 a (Multiset.mem_cons_self a others)) facts.2 held

/-- Of one Close frame and the Pings tracked before it, whose receipts all differ from the
    Close's: the mark is set only once the receipt is both registered and reported, and from
    then on it is set or a thread is about to set it. A pending close with the mark set and no
    Close deferred has a thread that will try it, unless the transport has closed. -/
theorem done_exactly_when_met (h : Nat) (q : Pool State Section)
    (run : Run (program true) InOrder (start true h) q) (pings : List SendReceipt) (r : SendReceipt)
    (one : q.state.closeReceipts = [some r]) (handed : q.state.receipts = pings ++ [r])
    (differ : r ∉ pings) :
    (q.state.done = true →
      (∀ a ∈ owed q, registers a = none) ∧ q.state.fired.length = pings.length + 1) ∧
    ((∀ a ∈ owed q, registers a = none) → q.state.fired.length = pings.length + 1 →
      q.state.done = true ∨ ∃ a ∈ owed q, proves a = true) ∧
    (q.state.phase = .pending → q.state.done = true → q.state.closeFrameDeferred = false →
      q.state.rawClosed = true ∨ ∃ a ∈ owed q, tries a = true) := by
  have most := (handed_run run).most
  rw [handed, List.length_append, List.length_singleton] at most
  obtain ⟨exactly, _, waits, _, met⟩ := (rendezvous_run run).meets pings r one handed differ
  refine ⟨?_, ?_, ?_⟩
  · intro did
    have reported := met (.inr did)
    rw [did, Bool.toNat_true] at exactly
    refine ⟨?_, by omega⟩
    intro a member
    have none := (weigh_eq_zero_iff registering _).mp (by omega) a member
    simpa [registering] using none
  · intro registered all
    have none : weigh registering (owed q) = 0 := by
      rw [weigh_eq_zero_iff]
      intro a member
      rw [registering, registered a member]
      rfl
    have unset : q.state.receipt ≠ some r := fun set => by
      have few := waits set
      omega
    rw [none, beq_false_of_ne unset, Bool.toNat_false] at exactly
    cases did : q.state.done with
    | true => exact .inl rfl
    | false =>
      rw [did, Bool.toNat_false] at exactly
      have positive : 0 < weigh storing (owed q) := by omega
      exact .inr (exists_of_tally positive)
  · intro pending did sent
    rcases tried_run run pending did sent with shut | trier
    · exact .inl shut
    · exact .inr (exists_of_tally trier)

end Runs

def inOrder (_ : Choice) (a : Section) (s : State) : Bool :=
  match a with
  | .onSent r => s.receipts[s.fired.length]? == some r
  | _ => true

theorem inOrder_sound (c : Choice) (a : Section) (s : State) (passed : inOrder c a s = true) :
    InOrder c a s := by
  rintro r rfl
  simpa [inOrder] using passed

/-- A heartbeat's Ping is reported, and then the Close of a protocol error is written. -/
def closeBehindPing (ping close : SendReceipt) : List (Move Section Choice) :=
  List.flatten [[.start (.call .heartbeatPing)], runs 0 3 {},
    runs 0 1 { size := 6, receipt := some ping }, runs 0 8 {}, [.start (.onSent ping)], runs 1 1 {},
    [.start (.call (.close .protocol))], runs 2 5 {}, runs 2 1 { size := 4, receipt := some close }]

theorem done_after_early_report : ∃ q, (Run (program true) InOrder (start true 0) q ∧
    q.state.phase = .pending ∧ q.state.done = true) ∧ q.state.fired.length = 2 ∧
    ∃ a ∈ owed q, tries a = true := by
  obtain ⟨q, run, checked⟩ := replay_meets inOrder_sound
    (fun q => decide (q.state.closeReceipts = [some ⟨10, false⟩] ∧
      q.state.receipts = [⟨6, false⟩] ++ [⟨10, false⟩] ∧ q.state.phase = .pending ∧
      q.state.done = true ∧ q.state.closeFrameDeferred = false ∧ q.state.rawClosed = false))
    (List.flatten [closeBehindPing ⟨6, false⟩ ⟨10, false⟩, [.start (.onSent ⟨10, false⟩)],
      runs 3 1 {}, runs 2 14 {}])
    (P := program true) (p := start true 0) (by decide +kernel) (by decide +kernel)
  obtain ⟨one, handed, pending, done, sent, opened⟩ := of_decide_eq_true checked
  obtain ⟨met, _, tried⟩ := done_exactly_when_met 0 q run [⟨6, false⟩] ⟨10, false⟩ one handed
    (by decide)
  refine ⟨q, ⟨run, pending, done⟩, (met done).2, (tried pending done sent).resolve_left ?_⟩
  simp [opened]

/-- The bytes below a connection whose layer holds output: handed to the socket, and held. -/
structure Below where
  queued : Nat := 0
  held : Nat := 0

/-- `layerNode.WriteTracked` through a holder: the held bytes count as they are. -/
def Below.writeTracked (n : Nat) (l : Below) : Below × SendReceipt :=
  ({ l with held := l.held + n }, ⟨l.held + n + l.queued, true⟩)

/-- What was held leaves as `n` bytes. -/
def Below.flush (n : Nat) (l : Below) : Below := { queued := l.queued + n, held := 0 }

def pingOver : Below × SendReceipt := Below.writeTracked 110 {}

def closeOver : Below × SendReceipt := (pingOver.1.flush 40).writeTracked 70

/-- The Close is taken for reported by the memo of a Ping with an equal receipt, and the
    transport is closed before the Close has left. -/
theorem closed_by_ping_receipt : ∃ q, Run (program true) InOrder (start true 0) q ∧
    q.state.closeReceipts = [some closeOver.2] ∧
    q.state.receipts = [pingOver.2] ++ [closeOver.2] ∧ q.state.fired = [pingOver.2] ∧
    q.state.done = true ∧ q.state.phase = .claimed ∧ q.state.rawClosed = true := by
  obtain ⟨q, run, checked⟩ := replay_meets inOrder_sound
    (fun q => decide (q.state.closeReceipts = [some closeOver.2] ∧
      q.state.receipts = [pingOver.2] ++ [closeOver.2] ∧ q.state.fired = [pingOver.2] ∧
      q.state.done = true ∧ q.state.phase = .claimed ∧ q.state.rawClosed = true))
    (List.flatten [closeBehindPing pingOver.2 closeOver.2, runs 2 20 {}])
    (P := program true) (p := start true 0) (by decide +kernel) (by decide +kernel)
  exact ⟨q, run, of_decide_eq_true checked⟩

end UwsRendezvous
