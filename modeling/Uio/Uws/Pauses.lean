import Uio.Uws.Backpressure

/-!
What the two pauses keep. Under the mutex each mirror bit follows its owner's flag, and
the transport's count follows the flags. A watermark pause on a drained queue has a
report or a round on its way to it, since the bit is published before the queue is read
again and the bytes are retired before the report reads the bit. A close looks for the
pauses only after it has set `closing`, which every pause reads again under the mutex.
-/
namespace UwsPauses
open Interleaving Monitor UwsBackpressure

variable {m : Marks} {s s' : State} {a : Section} {more : List Section}
  {others owing : Multiset Section}

def holds : Section → Bool
  | .setDecide _ | .setCompare _ _ | .setClear _ | .resumeBit | .resumeClear | .pauseCheck _
  | .pauseCount _ | .pauseFlag _ | .publish _ | .resumeFlag _ _ | .resumeCount _ _ | .unlock _
  | .releaseSwap => true
  | .checkClosed _ again | .checkClosing _ again | .checkOpened _ again => again
  | _ => false

def mutex : Mutex State Section := ⟨State.mu, holds⟩

theorem grip_eq (a : Section) : mutex.grip a = (holds a).toNat := rfl

theorem taken_eq (s : State) : mutex.taken s = s.mu.toNat := rfl

theorem grip_step (step : Step m s a s' more) (held : mutex.grip a ≤ mutex.taken s) :
    mutex.grip a + mutex.taken s' = mutex.taken s + (more.map mutex.grip).sum := by
  have most := Bool.toNat_le s.mu
  rw [grip_eq, taken_eq] at held
  cases step
  case unlockEnds | unlockRechecks => exact Nat.le_antisymm held most
  case lockSet paused free | lockCheck call free | lockRelease free =>
    rw [taken_eq, taken_eq, free]; rfl
  all_goals exact Nat.add_comm _ _

theorem handed (m : Marks) : mutex.Handed (program m) := by
  intro c a s ready held
  exact grip_step (exec_step m c a s ready) held

theorem calls (m : Marks) (a : Section) (entry : (program m).entry a = true) :
    mutex.holds a = false := by
  cases a <;> simp_all [program, UwsBackpressure.entry, mutex, holds]

/-- Where the holder stands between an owner's flag and its mirror bit. -/
inductive View where
  | settled
  | lowered
  | clear
  | raised

def View.fits : View → Bool → Bool → Prop
  | .settled, bit, flag => bit = flag
  | .lowered, bit, _ => bit = false
  | .clear, bit, flag => bit = false ∧ flag = false
  | .raised, _, flag => flag = true

theorem flag_of_fits {v : View} {flag : Bool} (fits : v.fits true flag) : flag = true := by
  cases v with
  | settled => exact fits.symm
  | lowered => cases fits
  | clear => cases fits.1
  | raised => exact fits

def Then.view : Then → Owner → View
  | .internal, .internal => .lowered
  | _, _ => .settled

@[simp] theorem view_unlock (recheck : Bool) (o : Owner) :
    Then.view (.unlock recheck) o = .settled := by
  cases o <;> rfl

def view : Section → Owner → View
  | .pauseFlag owner, o => if o = owner then .clear else .settled
  | .publish owner, o => if o = owner then .raised else .settled
  | .resumeFlag owner next, o => if o = owner then .lowered else Then.view next o
  | .resumeCount owner next, o => if o = owner then .clear else Then.view next o
  | _, _ => .settled

def mirrored : Guarded State Section where
  free s := ∀ o, s.readPaused o = s.paused o
  knows s a := ∀ o, (view a o).fits (s.readPaused o) (s.paused o)

theorem unheld_frame (step : Step m s a s' more) (outside : holds a = false) :
    s'.readPaused = s.readPaused ∧ s'.paused = s.paused := by
  cases step <;> first | exact ⟨rfl, rfl⟩ | cases outside

theorem view_taking (step : Step m s a s' more) (outside : holds a = false) (b : Section)
    (member : b ∈ more) (o : Owner) : view b o = .settled := by
  cases step
  all_goals
    first
    | exact absurd member List.not_mem_nil
    | (rw [List.mem_singleton.mp member]; rfl)
    | cases outside

theorem knows_of_settled {b : Section} (views : ∀ o, view b o = .settled)
    (same : ∀ o, s.readPaused o = s.paused o) : mirrored.knows s b := by
  intro o
  rw [views]
  exact same o

theorem kept_one {b : Section} (locked : s.mu = true) (knows : mirrored.knows s b) :
    mirrored.Kept mutex s ↑[b] := by
  refine ⟨?_, ?_⟩
  · intro unlocked
    exact absurd (locked.symm.trans unlocked) (by decide)
  · intro a member _
    rw [List.mem_singleton.mp (Multiset.mem_coe.mp member)]
    exact knows

theorem mirrored_held (step : Step m s a s' more) (holder : holds a = true)
    (locked : s.mu = true) (knows : mirrored.knows s a) : mirrored.Kept mutex s' ↑more := by
  cases step
  case unlockEnds => exact ⟨fun _ o => knows o, fun b member => absurd member (by simp)⟩
  case unlockRechecks =>
    refine ⟨fun _ o => knows o, ?_⟩
    intro b member holds
    rw [List.mem_singleton.mp (Multiset.mem_coe.mp member)] at holds
    cases holds
  case releaseSwap =>
    refine kept_one locked ?_
    intro o
    cases o <;> rfl
  case skipsToInternal owner free | countsToInternal owner turns =>
    refine kept_one locked ?_
    intro o
    have at_o := knows o
    cases o <;> cases owner <;> simp_all [view, View.fits, Then.view]
  all_goals
    first
    | exact kept_one locked (knows_of_settled (fun _ => rfl) knows)
    | (cases holder; done)
    | skip
  all_goals
    refine kept_one locked ?_
    intro o
    have at_o := knows o
    simp only [view, Function.update_apply] at at_o ⊢
    split_ifs at at_o ⊢ <;> simp_all [View.fits]

theorem mutex_exclusive {q : Pool State Section} (reached : Reachable (program m) start q) :
    mutex.taken q.state = weigh mutex.grip (owed q) :=
  exclusive (handed m) (calls m) rfl reached

theorem mirrored_kept {q : Pool State Section} (reached : Reachable (program m) start q) :
    mirrored.Kept mutex q.state (owed q) := by
  refine guarded (handed m) (calls m) rfl ?_ ?_ ?_ ?_ ?_ reached
  · exact ⟨fun _ _ => rfl, fun a member => absurd member (Multiset.notMem_zero a)⟩
  · intro s a c ready holder locked knows
    exact mirrored_held (exec_step m c a s ready) holder locked knows
  · intro s a c ready outside free o
    obtain ⟨bits, flags⟩ := unheld_frame (exec_step m c a s ready) outside
    exact (congrFun bits o).trans ((free o).trans (congrFun flags o).symm)
  · intro s a b c ready outside member _ free
    have step := exec_step m c a s ready
    obtain ⟨bits, flags⟩ := unheld_frame step outside
    refine knows_of_settled (view_taking step outside b member) ?_
    intro o
    exact (congrFun bits o).trans ((free o).trans (congrFun flags o).symm)
  · intro s a b c ready outside holder knows o
    obtain ⟨bits, flags⟩ := unheld_frame (exec_step m c a s ready) outside
    have at_o := knows o
    rw [← congrFun bits o, ← congrFun flags o] at at_o
    exact at_o

def counting : Section → Nat
  | .pauseFlag _ | .resumeCount _ _ => 1
  | _ => 0

def entering : Section → Nat
  | .lock _ => 1
  | a => (holds a).toNat

/-- Has found the connection open under the mutex and is about to pause. -/
def pausing : Section → Nat
  | .setCompare _ paused => paused.toNat
  | .checkOpened .pauseReads again => again.toNat
  | .pauseCheck _ | .pauseCount _ | .pauseFlag _ | .publish _ => 1
  | _ => 0

def releasing : Section → Nat
  | .releaseLoad | .lock .releaseReadPauses | .releaseSwap => 1
  | _ => 0

/-- Will look at the queue and at the watermark's pause again, or lifts it. -/
def coming : Section → Nat
  | .resumeReadsAfterDrain | .drainQueue | .holdRecheck | .setClear _ => 1
  | .setInternalReadPause paused | .lock (.setInternalReadPause paused) | .setDecide paused
  | .setCompare _ paused => (!paused).toNat
  | .unlock recheck => recheck.toNat
  | _ => 0

def Counted (s : State) (owing : Multiset Section) : Prop :=
  s.owners = s.foreign + (s.paused .internal).toNat + (s.paused .external).toNat +
    weigh counting owing

@[mk_iff] structure Created (s : State) (owing : Multiset Section) : Prop where
  users : 0 < weigh entering owing → s.readPauses = true
  bits : ∀ o, s.readPaused o = true → s.readPauses = true

@[mk_iff] structure Released (s : State) (owing : Multiset Section) : Prop where
  begun : s.closing = true ↔ s.marked = true ∨ s.aborted = true
  bits : s.marked = true → ∀ o, s.readPaused o = true → 0 < weigh releasing owing
  pausing : s.marked = true → 0 < weigh pausing owing → 0 < weigh releasing owing

def Awaited (m : Marks) (s : State) (owing : Multiset Section) : Prop :=
  s.readPaused .internal = true → s.outboundBuffered ≤ m.outboundLow → 0 < weigh coming owing

theorem counted_step (step : Step m s a s' more) (knows : holds a = true → mirrored.knows s a)
    (held : Counted s (a ::ₘ others)) : Counted s' (↑more + others) := by
  rw [Counted] at held ⊢
  simp only [weigh_cons, weigh_add, weigh_coe] at held ⊢
  cases step
  case pauseCounts owner _ =>
    simp only [counting, sum_map_cons, sum_map_nil] at held ⊢
    omega
  case pauseFlag owner =>
    have free : s.paused owner = false := by
      have known := knows rfl owner
      simp only [view, if_true, View.fits] at known
      exact known.2
    cases owner <;> simp_all [counting] <;> omega
  case resumeDrops owner next paused => cases owner <;> simp_all [counting] <;> omega
  case countsToInternal owner turns | countsToUnlock owner recheck turns | foreignPause
    | foreignResume turns positive =>
    simp_all [counting]
    omega
  all_goals exact held

theorem created_step (step : Step m s a s' more) (held : Created s (a ::ₘ others)) :
    Created s' (↑more + others) := by
  rw [created_iff] at held ⊢
  simp only [weigh_cons, weigh_add, weigh_coe] at held ⊢
  obtain ⟨users, bits⟩ := held
  cases step
  case setLocks paused created | resumeLocks created | releaseLocks created =>
    exact ⟨fun _ => created, fun _ _ => created⟩
  case setEnsure | pauseEnsure => exact ⟨fun _ => rfl, fun _ _ => rfl⟩
  case unlockEnds | unlockRechecks => exact ⟨fun _ => users (Nat.add_pos_left Nat.one_pos _), bits⟩
  all_goals
    first
    | exact ⟨users, bits⟩
    | exact ⟨users, fun _ _ => users (Nat.add_pos_left Nat.one_pos _)⟩

theorem pausing_le (a : Section) : pausing a ≤ mutex.grip a := by
  rw [grip_eq]
  cases a
  case setCompare asked paused => exact Bool.toNat_le paused
  case checkOpened call again => cases call <;> simp [pausing, holds]
  all_goals simp [pausing, holds]

theorem entering_ge (a : Section) : mutex.grip a ≤ entering a := by
  rw [grip_eq]
  cases a <;> simp [entering, holds]

theorem released_step (step : Step m s a s' more) (created : Created s (a ::ₘ others))
    (one : mutex.taken s = weigh mutex.grip (a ::ₘ others)) (held : Released s (a ::ₘ others)) :
    Released s' (↑more + others) := by
  have few := weigh_le pausing_le others
  have users := weigh_le entering_ge others
  have most := taken_le mutex s
  rw [created_iff] at created
  rw [released_iff] at held ⊢
  simp only [weigh_cons, weigh_add, weigh_coe] at created held one ⊢
  obtain ⟨begun, bits, waiting⟩ := held
  cases step
  case markClosing => exact ⟨by simp, fun _ _ _ => Nat.add_pos_left Nat.one_pos _,
      fun _ _ => Nat.add_pos_left Nat.one_pos _⟩
  case releaseNothing none =>
    have idle : weigh entering others = 0 := by
      by_contra some
      have made := created.1 (by omega)
      rw [none] at made
      cases made
    refine ⟨begun, fun _ o set => ?_, fun _ positive => ?_⟩
    · have made := created.2 o set
      rw [none] at made
      cases made
    · have positive : 0 < weigh pausing others := by simpa using positive
      omega
  case releaseSwap =>
    refine ⟨begun, fun _ _ set => (by cases set), fun _ positive => ?_⟩
    have holder : mutex.grip .releaseSwap = 1 := rfl
    simp only [sum_map_cons, sum_map_nil, pausing] at positive
    omega
  case setDecide asked =>
    refine ⟨begun, bits, fun marked positive => ?_⟩
    rw [begun.mpr (.inl marked)] at positive
    exact waiting marked (by simpa [pausing] using positive)
  all_goals try exact ⟨begun, bits, waiting⟩
  all_goals
    simp only [pausing, releasing, sum_map_cons, sum_map_nil, Nat.zero_add,
      Nat.add_zero] at bits waiting ⊢
  all_goals grind -ring -linarith [Function.update_apply]

theorem awaited_step (step : Step m s a s' more) (created : Created s (a ::ₘ others))
    (held : Awaited m s (a ::ₘ others)) : Awaited m s' (↑more + others) := by
  rw [created_iff] at created
  rw [Awaited] at held ⊢
  simp only [weigh_cons, weigh_add, weigh_coe] at created held ⊢
  cases step
  case setDecide asked =>
    intro paused drained
    have positive := held paused drained
    cases asked
    · exact positive
    · exact Nat.lt_of_lt_of_le positive (Nat.add_le_add_right (Nat.zero_le _) _)
  all_goals try exact held
  all_goals
    simp only [coming, sum_map_cons, sum_map_nil, Nat.zero_add, Nat.add_zero] at held ⊢
    grind -ring -linarith [Function.update_apply]

section Runs
variable {p q r : Pool State Section}

theorem entry_weightless (entry : (program m).entry a = true) :
    counting a = 0 ∧ entering a = 0 ∧ pausing a = 0 := by
  cases a
  case checkClosed call again => simp_all [program, UwsBackpressure.entry, counting, entering,
    pausing, holds]
  all_goals first | exact ⟨rfl, rfl, rfl⟩ | cases entry

theorem counted (reached : Reachable (program m) start q) : Counted q.state (owed q) := by
  refine owed_invariant_given (mirrored.Kept mutex) Counted (fun r before => mirrored_kept before)
    rfl ?_ ?_ reached
  · intro s others a entry held
    rw [Counted, weigh_cons, (entry_weightless entry).1, Nat.zero_add]
    exact held
  · intro s others a c ready _ kept held
    exact counted_step (exec_step m c a s ready) (kept.2 a (Multiset.mem_cons_self a others)) held

theorem created (reached : Reachable (program m) start q) : Created q.state (owed q) := by
  refine owed_invariant Created ?_ ?_ ?_ reached
  · exact ⟨nofun, fun _ set => (by cases set)⟩
  · intro s others a entry held
    rw [created_iff, weigh_cons, (entry_weightless entry).2.1, Nat.zero_add]
    exact (created_iff s others).mp held
  · intro s others a c ready _ held
    exact created_step (exec_step m c a s ready) held

theorem released (reached : Reachable (program m) start q) : Released q.state (owed q) := by
  refine owed_invariant_given
    (fun s owing => Created s owing ∧ mutex.taken s = weigh mutex.grip owing) Released
    (fun r before => ⟨created before, mutex_exclusive before⟩) ?_ ?_ ?_ reached
  · exact ⟨by decide, nofun, nofun⟩
  · intro s others a entry held
    have idle := (entry_weightless entry).2.2
    rw [released_iff] at held ⊢
    simp only [weigh_cons, idle, Nat.zero_add]
    exact ⟨held.1, fun marked o set => Nat.add_pos_right _ (held.2.1 marked o set),
      fun marked positive => Nat.add_pos_right _ (held.2.2 marked positive)⟩
  · intro s others a c ready _ known held
    exact released_step (exec_step m c a s ready) known.1 known.2 held

theorem awaited (reached : Reachable (program m) start q) : Awaited m q.state (owed q) := by
  refine owed_invariant_given Created (Awaited m) (fun r before => created before) ?_ ?_ ?_ reached
  · intro paused
    cases paused
  · intro s others a entry held paused drained
    rw [weigh_cons]
    exact Nat.add_pos_right _ (held paused drained)
  · intro s others a c ready _ known held
    exact awaited_step (exec_step m c a s ready) known held

theorem paused_of_bit (reached : Reachable (program m) start q) {o : Owner}
    (set : q.state.readPaused o = true) : q.state.paused o = true := by
  have kept := mirrored_kept reached
  cases locked : q.state.mu with
  | false => exact (kept.1 locked o).symm.trans set
  | true =>
    obtain ⟨a, member, holder⟩ := holder_exists (mutex_exclusive reached) locked
    have known := kept.2 a member holder o
    exact flag_of_fits (set ▸ known)

/-- Sections of `ResumeReads` and of a close, the only ones to take the application's
    pause away. -/
def withdraws : Section → Bool
  | .resumeClear | .releaseSwap => true
  | _ => false

theorem external_stays (step : Step m s a s' more) (kept : withdraws a = false)
    (set : s.readPaused .external = true) : s'.readPaused .external = true := by
  cases step
  all_goals first | exact set | rfl | cases kept

theorem external_run (run : Run (program m) (fun _ a _ => withdraws a = false) q r)
    (set : q.state.readPaused .external = true) : r.state.readPaused .external = true := by
  refine owed_invariant (fun s _ => s.readPaused .external = true) set ?_ ?_ run
  · intro s others a _ held
    exact held
  · intro s others a c ready kept held
    exact external_stays (exec_step m c a s ready) kept held

theorem exists_counting_iff (owing : Multiset Section) :
    (∃ a ∈ owing, 0 < counting a) ↔ weigh counting owing ≠ 0 := by
  constructor
  · rintro ⟨a, member, positive⟩
    have heavier := weigh_of_mem counting member
    omega
  · intro some
    exact exists_of_weigh_pos (Nat.pos_of_ne_zero some)

theorem held_iff (reached : Reachable (program m) start q) :
    q.state.owners ≠ 0 ↔ q.state.foreign ≠ 0 ∨ (∃ o, q.state.paused o = true) ∨
      ∃ a ∈ owed q, 0 < counting a := by
  have count : q.state.owners = q.state.foreign + (q.state.paused .internal).toNat +
    (q.state.paused .external).toNat + weigh counting (owed q) := counted reached
  have some_owner : (∃ o, q.state.paused o = true) ↔
      (q.state.paused .internal).toNat + (q.state.paused .external).toNat ≠ 0 := by
    constructor
    · rintro ⟨o, set⟩
      cases o <;> simp [set]
    · intro some
      by_contra none
      have free : ∀ o, q.state.paused o = false :=
        fun o => Bool.eq_false_iff.mpr (fun set => none ⟨o, set⟩)
      rw [free, free] at some
      exact some rfl
  rw [exists_counting_iff, some_owner]
  omega

/-- Between two holders of the mutex the mirror bits are the flags, and no owner stands
    between its flag and the transport's count. -/
theorem settled_of_unlocked (reached : Reachable (program m) start q)
    (unlocked : q.state.mu = false) :
    (∀ o, q.state.readPaused o = q.state.paused o) ∧ ∀ a ∈ owed q, counting a = 0 := by
  refine ⟨(mirrored_kept reached).1 unlocked, ?_⟩
  intro a member
  have outside := unheld (mutex_exclusive reached) unlocked a member
  cases a <;> first | rfl | cases outside

theorem released_of_closed (reached : Reachable (program m) start q)
    (marked : q.state.marked = true) (done : ∀ a ∈ owed q, releasing a = 0) :
    (∀ o, q.state.readPaused o = false) ∧ (q.state.mu = false → ∀ o, q.state.paused o = false) := by
  have none : weigh releasing (owed q) = 0 := (weigh_eq_zero_iff releasing (owed q)).mpr done
  have bits : ∀ o, q.state.readPaused o = false := by
    intro o
    apply Bool.eq_false_iff.mpr
    intro set
    have owing := (released reached).bits marked o set
    omega
  refine ⟨bits, ?_⟩
  intro unlocked o
  rw [← (settled_of_unlocked reached unlocked).1 o]
  exact bits o

/-- A watermark pause over a drained queue has a report or a round still to come; what a
    drain does leaves the application's pause alone; the transport holds its pause exactly
    while an owner does; and a close leaves neither owner's pause behind, unless a heartbeat
    whose Ping failed began it alone. -/
theorem watermark_pause_sound (reached : Reachable (program m) start q) :
    (q.state.readPaused .internal = true → q.state.outboundBuffered ≤ m.outboundLow →
      ∃ a ∈ owed q, 0 < coming a) ∧ (q.state.readPaused .external = true →
      ∀ r, Run (program m) (fun _ a _ => withdraws a = false) q r →
        r.state.readPaused .external = true ∧ r.state.paused .external = true ∧
          r.state.owners ≠ 0) ∧
    ((q.state.owners ≠ 0 ↔ q.state.foreign ≠ 0 ∨ (∃ o, q.state.paused o = true) ∨
        ∃ a ∈ owed q, 0 < counting a) ∧
      (q.state.mu = false → (∀ o, q.state.readPaused o = q.state.paused o) ∧
        ∀ a ∈ owed q, counting a = 0)) ∧
    (q.state.closing = true ↔ q.state.marked = true ∨ q.state.aborted = true) ∧
    (q.state.marked = true → (∀ a ∈ owed q, releasing a = 0) → (∀ o, q.state.readPaused o = false) ∧
        (q.state.mu = false → ∀ o, q.state.paused o = false)) ∧
    (q.state.aborted = false → q.state.closing = true → (∀ a ∈ owed q, releasing a = 0) →
      (∀ o, q.state.readPaused o = false) ∧ (q.state.mu = false → ∀ o, q.state.paused o = false)) := by
  have begun := (released reached).begun
  refine ⟨?_, ?_, ⟨held_iff reached, settled_of_unlocked reached⟩, begun,
    released_of_closed reached, ?_⟩
  · intro paused drained
    exact exists_of_weigh_pos (awaited reached paused drained)
  · intro set r run
    have later : Reachable (program m) start r := run_trans reached (run_reachable run)
    have stays := external_run run set
    have flag := paused_of_bit later stays
    exact ⟨stays, flag, (held_iff later).mpr (.inr (.inl ⟨.external, flag⟩))⟩
  · intro unaborted closing
    rw [unaborted] at begun
    exact released_of_closed reached ((begun.mp closing).resolve_right Bool.false_ne_true)

end Runs

def pausedByApplication : List (Move Section Choice) :=
  List.flatten [[.start .opens], runs 0 1 {}, [.start (.checkClosed .pauseReads false)],
    runs 1 13 {}]

/-- Both owners pause, the queue drains, and the report is still to come. -/
def drainedWhilePaused : List (Move Section Choice) :=
  List.flatten [pausedByApplication, [.start .enqueue], runs 2 1 ⟨8, false, 0⟩,
    [.start .holdsReplies], runs 3 14 ⟨0, true, 8⟩, [.start .retire], runs 4 1 ⟨8, false, 0⟩]

theorem watermark_pause_sound_drained : ∃ q,
    (Reachable (program ⟨2, 8⟩) start q ∧ q.state.readPaused .internal = true ∧
      q.state.readPaused .external = true ∧ q.state.outboundBuffered = 0 ∧ q.state.owners = 2) ∧
    ∃ a ∈ owed q, 0 < coming a := by
  obtain ⟨q, reached, checked⟩ := replay_reaches (P := program ⟨2, 8⟩) (p := start)
    drainedWhilePaused
    (fun q => decide (q.state.readPaused .internal = true ∧ q.state.readPaused .external = true ∧
      q.state.outboundBuffered = 0 ∧ q.state.owners = 2)) (by decide +kernel)
  obtain ⟨internal, external, empty, two⟩ := of_decide_eq_true checked
  exact ⟨q, ⟨reached, internal, external, empty, two⟩,
    (watermark_pause_sound reached).1 internal (empty ▸ Nat.zero_le 2)⟩

/-- A heartbeat that cannot send its Ping closes and leaves the application's pause. -/
theorem heartbeat_leaves_pause : ∃ q, Reachable (program ⟨2, 8⟩) start q ∧ owed q = 0 ∧
    q.state.closing = true ∧ q.state.readPaused .external = true ∧
    q.state.paused .external = true ∧ q.state.owners = 1 := by
  obtain ⟨q, reached, checked⟩ := replay_reaches (P := program ⟨2, 8⟩) (p := start)
    (List.flatten [pausedByApplication, [.start .heartbeatFailed], runs 2 3 {}])
    (fun q => decide (q.threads.all List.isEmpty = true ∧ q.state.closing = true ∧
      q.state.readPaused .external = true ∧ q.state.paused .external = true ∧ q.state.owners = 1))
    (by decide +kernel)
  obtain ⟨done, rest⟩ := of_decide_eq_true checked
  exact ⟨q, reached, owed_eq_zero done, rest⟩

end UwsPauses
