import Uio.Uws.WriteOrder

/-!
What a thread on its way to the transport close may count on. These facts outlive every
other thread's sections: a closed transport stays closed, a Close stays queued unless an
abort has claimed, the closing mark stays, and a receipt that has fired stays fired.
-/
namespace UwsCloseFacts
open Interleaving Monitor UwsWrites UwsWriteSteps UwsOneClose UwsWriteOrder

variable {tracked : Bool} {s s' : State} {a b : Section} {more : List Section}
  {others owing : Multiset Section}

theorem isClose_hand : Job.hand.isClose = false := rfl

theorem isClose_ping : Job.heartbeatPing.isClose = false := rfl

theorem isClose_tail {job : Job} (other : ∀ closer, job ≠ .close closer) :
    (job.isClose && job != .heartbeatClose) = false := by
  cases job <;> first | rfl | exact absurd rfl (other _)

theorem isClose_heartbeat : Job.heartbeatClose.isClose = true := rfl

theorem isClose_close (closer : Closer) : (Job.close closer).isClose = true := rfl

def Concluded (s : State) : Prop :=
  s.closeFrameSent = true ∨ s.closeFrameDeferred = true ∨ s.phase = .claimed

def Proven (s : State) : Prop := ∃ r ∈ s.closeReceipts, ∀ n, r = some n → n ∈ s.fired

def shuts : Section → Bool
  | .result job r | .closingMark job r _ | .unlockCheck job r _ | .rollback job _ r
  | .flushed _ job r => job.isClose && r == .closed
  | .flushRollback _ job _ closed => job.isClose && closed
  | _ => false

def concludes : Section → Bool
  | .result job r | .closingMark job r _ | .unlockCheck job r _ | .rollback job _ r =>
    job.isClose && r == .ok
  | .flushTake next job | .flushCount next job _ | .flushWrite next job _
  | .flushRollback next job _ _ | .flushed next job _ => Next.isTail next && job.isClose
  | .rawFlush job _ => job.isClose
  | _ => false

/-- Behind the closing mark, which the heartbeat's Close makes only after its flush. -/
def closes : Section → Bool
  | .flushTake next job | .flushCount next job _ | .flushWrite next job _
  | .flushRollback next job _ _ | .flushed next job _ =>
    Next.isTail next && job.isClose && job != .heartbeatClose
  | .rawFlush job _ => job.isClose && job != .heartbeatClose
  | .unlockCheck job _ _ => job.isClose
  | _ => false

def registers : Section → Option (Option SendReceipt)
  | .setReceipt _ r | .retryReceipt r => some r
  | _ => none

def proves : Section → Bool
  | .setDone _ | .storeDone | .retryDone => true
  | _ => false

def traces : Section → Bool
  | .writeTracked _ | .retryTracked => true
  | _ => false

@[mk_iff] structure Carries (tracked : Bool) (s : State) (a : Section) : Prop where
  shut : shuts a = true → s.rawClosed = true
  concluded : concludes a = true → Concluded s
  closing : closes a = true → s.closing = true
  registered : ∀ r, registers a = some r → r ∈ s.closeReceipts
  proven : proves a = true → Proven s
  traced : traces a = true → tracked = true

structure Settled (s : State) : Prop where
  closed : s.closed = true → s.rawClosed = true
  done : s.done = true → Proven s
  receipt : ∀ r, s.receipt = some r → some r ∈ s.closeReceipts
  early : ∀ r, s.earlySend = some r → r ∈ s.fired

structure Grows (s s' : State) : Prop where
  rawClosed : s.rawClosed = true → s'.rawClosed = true
  concluded : Concluded s → Concluded s'
  closing : s.closing = true → s'.closing = true
  closeReceipts : s.closeReceipts ⊆ s'.closeReceipts
  fired : s.fired ⊆ s'.fired

/-- Bytes counted as pending for a write that the transport has not answered, or for one
    it has answered and that is not taken back. -/
def offered : Section → Nat
  | .flushWrite _ _ frames => bytes frames
  | .flushRollback _ _ n _ | .write _ n | .rollback _ n _ | .retryWrite n
  | .retryRollback n _ => n
  | _ => 0

theorem Proven.grows (proven : Proven s) (grown : Grows s s') : Proven s' := by
  obtain ⟨r, member, fired⟩ := proven
  exact ⟨r, grown.closeReceipts member, fun n same => grown.fired (fired n same)⟩

theorem Carries.grows (held : Carries tracked s b) (grown : Grows s s') : Carries tracked s' b :=
  ⟨fun on => grown.rawClosed (held.shut on), fun on => grown.concluded (held.concluded on),
    fun on => grown.closing (held.closing on),
    fun r same => grown.closeReceipts (held.registered r same),
    fun on => (held.proven on).grows grown, held.traced⟩

theorem grows_step (step : Step tracked s a s' more) : Grows s s' := by
  cases step
  case claimAbort | claim =>
    exact ⟨id, fun _ => .inr (.inr rfl), id, List.Subset.refl _, List.Subset.refl _⟩
  case markSent | retryMark =>
    exact ⟨id, fun _ => .inl rfl, id, List.Subset.refl _, List.Subset.refl _⟩
  case deferClose =>
    exact ⟨id, fun _ => .inr (.inl rfl), id, List.Subset.refl _, List.Subset.refl _⟩
  case requestTransportClose unclaimed =>
    refine ⟨id, ?_, id, List.Subset.refl _, List.Subset.refl _⟩
    intro concluded
    rcases concluded with sent | deferred | claimed
    · exact .inl sent
    · exact .inr (.inl deferred)
    · exact absurd claimed unclaimed
  case onSent | onSentEarly => exact ⟨id, id, id, List.Subset.refl _, List.subset_cons_self _ _⟩
  case writeTrackedClose | retryTracked =>
    exact ⟨id, id, id, List.subset_cons_self _ _, List.Subset.refl _⟩
  all_goals first
    | exact ⟨id, id, id, List.Subset.refl _, List.Subset.refl _⟩
    | exact ⟨fun _ => rfl, id, id, List.Subset.refl _, List.Subset.refl _⟩
    | exact ⟨id, id, fun _ => rfl, List.Subset.refl _, List.Subset.refl _⟩

theorem settled_step (step : Step tracked s a s' more) (held : Settled s)
    (mine : Carries tracked s a) : Settled s' := by
  have grown := grows_step step
  cases step
  case onClose closed => exact ⟨fun _ => closed, held.done, held.receipt, held.early⟩
  case onSent r same =>
    refine ⟨held.closed, fun on => (held.done on).grows grown, fun r none => (by cases none), ?_⟩
    intro n early
    exact List.mem_cons_of_mem r (held.early n early)
  case onSentEarly r =>
    refine ⟨held.closed, fun on => (held.done on).grows grown, held.receipt, ?_⟩
    intro n early
    cases early
    exact List.mem_cons_self
  case setReceiptEarly | retryReceiptEarly =>
    exact ⟨held.closed, held.done, held.receipt, fun r none => (by cases none)⟩
  case setReceiptZero | retryReceiptZero =>
    exact ⟨held.closed, held.done, fun r none => (by cases none), held.early⟩
  case setReceipt r _ | retryReceipt r _ =>
    refine ⟨held.closed, held.done, ?_, held.early⟩
    rintro n ⟨⟩
    exact mine.registered (some r) rfl
  case setDone | storeDone | retryDone =>
    exact ⟨held.closed, fun _ => mine.proven rfl, held.receipt, held.early⟩
  case writeTrackedClose | retryTracked =>
    exact ⟨held.closed, fun on => (held.done on).grows grown,
      fun r same => List.mem_cons_of_mem _ (held.receipt r same), held.early⟩
  all_goals first
    | exact ⟨held.closed, held.done, held.receipt, held.early⟩
    | exact ⟨fun _ => rfl, held.done, held.receipt, held.early⟩

theorem carries_proof (proof : proves b = true) (proven : Proven s) : Carries tracked s b := by
  cases b <;> first
    | (cases proof; done)
    | exact ⟨nofun, nofun, nofun,
        fun r same => (by cases same), fun _ => proven, nofun⟩

theorem carries_pure (step : Pure tracked s a more) (held : Settled s)
    (mine : Carries tracked s a) (member : b ∈ more) : Carries tracked s b := by
  have closed := held.closed
  rw [carries_iff] at mine ⊢
  cases step <;> simp only [List.mem_cons, List.not_mem_nil, or_false] at member
  case resultTail job _ other =>
    subst member
    have unmarked := isClose_tail other
    simp only [shuts, concludes, closes, registers, proves, traces, Next.isTail] at mine ⊢
    grind -ring -linarith
  all_goals
    rcases member with rfl | rfl | rfl <;>
    simp only [shuts, concludes, closes, registers, proves, traces, Concluded, Next.isTail,
      isClose_hand, isClose_ping, isClose_heartbeat, isClose_close] at mine ⊢ <;> grind -ring -linarith

theorem carries_step (step : Step tracked s a s' more) (held : Settled s)
    (mine : Carries tracked s a) (member : b ∈ more) : Carries tracked s' b := by
  have grown := mine.grows (grows_step step)
  cases step
  case stays step => exact carries_pure step held mine member
  case onSent r same =>
    rcases List.mem_pair.mp member with rfl | rfl
    · exact carries_proof rfl ⟨some r, held.receipt r same, fun n fires => by
        cases fires; exact List.mem_cons_self⟩
    · exact ⟨nofun, nofun, nofun,
        fun r same => (by cases same), nofun, nofun⟩
  case setReceiptEarly job r early | retryReceiptEarly r early =>
    rcases List.mem_singleton.mp member with rfl
    exact carries_proof rfl ⟨some r, mine.registered _ rfl, fun n fires => by
      cases fires; exact held.early r early⟩
  case setReceiptZero job | retryReceiptZero =>
    rcases List.mem_singleton.mp member with rfl
    exact carries_proof rfl ⟨none, mine.registered _ rfl, fun n fires => by cases fires⟩
  all_goals
    rw [carries_iff] at grown ⊢
    simp only [List.mem_cons, List.not_mem_nil, or_false] at member
  all_goals
    rcases member with rfl | rfl | rfl <;>
    simp only [shuts, concludes, closes, registers, proves, traces, Concluded, Next.isTail, breaks,
      UwsWrites.failure, isClose_heartbeat, isClose_close] at grown ⊢ <;> grind -ring -linarith

section Runs

variable {ok : Choice → Section → State → Prop} {h : Nat} {q : Pool State Section}

theorem carries_entry (entered : entry a = true) : Carries tracked s a := by
  cases a <;> first
    | (cases entered; done)
    | exact ⟨nofun, nofun, nofun,
        fun r same => (by cases same), nofun, nofun⟩

theorem settled_start : Settled (start tracked h).state :=
  ⟨nofun, nofun, fun r same => (by cases same),
    fun r same => (by cases same)⟩

theorem carries_run (run : Run (program tracked) ok (start tracked h) q) :
    Settled q.state ∧ ∀ a ∈ owed q, Carries tracked q.state a := by
  refine owed_carries Settled (Carries tracked) settled_start (by rintro _ ⟨⟩)
    (fun s a _ entered => carries_entry entered) ?_ run
  intro s a c ready _ held mine
  have step := exec_step tracked c s a ready
  exact ⟨settled_step step held mine, fun b other => other.grows (grows_step step),
    fun b member => carries_step step held mine member⟩

end Runs

end UwsCloseFacts
