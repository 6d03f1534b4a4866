import Uio.Umux.Edits

/-!
No frame is stranded: a stream of the table that has something to send is marked
queued, and its id is on the round-robin list. The list may hold ids more than
once and ids of streams that are gone; what matters is that a pass takes an entry
off the list together with the mark of the stream it stands for.
-/
namespace UmuxStranded
open Interleaving UmuxOutbox UmuxSession UmuxMachine UmuxEdits

def Waits (x : Tx) : Prop := x.out ≠ [] ∨ x.finState = .queued

structure OnList (o : Outward) : Prop where
  listed : Listed o.reg
  marked : ∀ id r, o.reg.streams.lookup id = some r → Waits (o.q.tx r) → (o.q.tx r).queued = true
  present : ∀ id r, o.reg.streams.lookup id = some r → (o.q.tx r).queued = true → id ∈ o.q.pending

theorem onList_update {o : Outward} (held : OnList o) {id : Nat} {r : Ref} {x : Tx} {q : Queues}
    {conn : Conn} (here : o.reg.streams.lookup id = some r) (tx : q.tx = Function.update o.q.tx r x)
    (marked : Waits x → x.queued = true) (own : x.queued = true → id ∈ q.pending)
    (others : ∀ k ≠ id, k ∈ o.q.pending → k ∈ q.pending) : OnList ⟨o.reg, q, conn⟩ := by
  refine ⟨held.listed, ?_, ?_⟩
  · intro k p there waits
    simp only [tx] at waits ⊢
    by_cases same : p = r
    · subst p
      rw [Function.update_self] at waits ⊢
      exact marked waits
    · rw [Function.update_of_ne same] at waits ⊢
      exact held.marked k p there waits
  · intro k p there queued
    simp only [tx] at queued
    by_cases same : p = r
    · subst p
      rw [Function.update_self] at queued
      rw [listed_sameId held.listed here there]
      exact own queued
    · rw [Function.update_of_ne same] at queued
      exact others k (lookup_apart here there same) (held.present k p there queued)

theorem mem_tail_of_ne {id k : Nat} {pending rest : List Nat} (first : pending = id :: rest)
    (other : k ≠ id) (member : k ∈ pending) : k ∈ pending.tail := by
  rw [first] at member ⊢
  exact (List.mem_cons.mp member).resolve_left other

theorem onList_afterData {o : Outward} (held : OnList o) {drainObs : Bool} {id : Nat}
    {rest : List Nat} {r : Ref} {f : UmuxFrame.Frame} {more : List UmuxFrame.Frame} {conn : Conn}
    (first : o.q.pending = id :: rest) (here : o.reg.streams.lookup id = some r)
    (out : (o.q.tx r).out = f :: more) :
    OnList ⟨o.reg, afterData drainObs id r (o.q.hand r f), conn⟩ := by
  have marked : (o.q.tx r).queued = true := held.marked id r here (.inl (by simp [out]))
  have popped : ((popOut r (o.q.hand r f)).tx r).out = more := by
    simp [popOut, Queues.hand, out]
  unfold afterData
  simp only [popped]
  split
  · rename_i nothing
    have moved : OnList ⟨o.reg, unqueue r (popOut r (o.q.hand r f)), conn⟩ := by
      refine onList_update held here (x := { o.q.tx r with out := more, queued := false })
        ?_ ?_ ?_ ?_
      · simp [unqueue, popOut, Queues.hand, Queues.popPending, Queues.setTx, out]
      · intro waits
        simp [Waits, nothing.1] at waits
        exact absurd waits (by simpa [popOut, Queues.hand] using nothing.2)
      · intro queued
        cases queued
      · intro k other member
        exact mem_tail_of_ne first other member
    split
    · exact ⟨moved.listed, moved.marked, moved.present⟩
    · exact moved
  · refine onList_update held here (x := { o.q.tx r with out := more }) ?_ ?_ ?_ ?_
    · simp [popOut, Queues.hand, Queues.setTx, out]
    · intro _
      exact marked
    · intro _
      simp
    · intro k other member
      exact List.mem_append_left _ (mem_tail_of_ne first other member)

theorem onList_edit {cfg : Endpoint} {o o' : Outward} (edit : Edit cfg o o') (held : OnList o) : OnList o' := by
  have listed := listed_edit edit held.listed
  cases edit with
  | shrunk streams openWait fewer waits =>
    exact ⟨listed, fun id r here => held.marked id r (fewer id r here),
      fun id r here => held.present id r (fewer id r here)⟩
  | created id openWait nextID waits =>
    have older : ∀ k r, o.reg.streams.lookup k = some r →
        (Queues.create o.q o.reg.fresh).tx r = o.q.tx r := by
      intro k r there
      exact setTx_other _ _ (Nat.ne_of_lt (held.listed.streams k r there).1)
    refine ⟨listed, ?_, ?_⟩
    · intro k r there waits
      rw [lookup_create] at there
      split at there
      · cases there
        simp [Queues.create, Waits] at waits
      · rw [older k r there] at waits ⊢
        exact held.marked k r there waits
    · intro k r there queued
      rw [lookup_create] at there
      split at there
      · cases there
        simp [Queues.create] at queued
      · rw [older k r there] at queued
        exact held.present k r there queued
  | aside q control pending tx handed =>
    refine ⟨listed, ?_, ?_⟩
    · intro k r there
      simp only [tx]
      exact held.marked k r there
    · intro k r there
      simp only [tx, pending]
      exact held.present k r there
  | spoke c wire failed | controlQueued f sends notData | controlSent f rest c first working wire =>
    exact ⟨listed, held.marked, held.present⟩
  | dropped r unlisted =>
    have other : ∀ k p, o.reg.streams.lookup k = some p → (dropOutLocked r o.q).tx p = o.q.tx p := by
      intro k p there
      refine setTx_other _ _ ?_
      intro same
      subst p
      exact unlisted k there
    refine ⟨listed, ?_, ?_⟩
    · intro k p there
      rw [other k p there]
      exact held.marked k p there
    · intro k p there
      rw [other k p there]
      exact held.present k p there
  | cleared empty =>
    refine ⟨listed, ?_, ?_⟩ <;>
    · intro k p there
      simp only [empty, AList.lookup_empty] at there
      cases there
  | skipped id rest first gone =>
    refine ⟨listed, held.marked, ?_⟩
    intro k p there queued
    refine mem_tail_of_ne first ?_ (held.present k p there queued)
    intro same
    subst k
    rw [gone] at there
    cases there
  | unqueued id rest r first here empty noFin =>
    refine onList_update held here (x := { o.q.tx r with queued := false }) rfl ?_ ?_ ?_
    · intro waits
      exact absurd waits (by simp [Waits, empty, noFin])
    · intro queued
      cases queued
    · intro k other member
      exact mem_tail_of_ne first other member
  | finSent id rest r c first here empty fin working wire =>
    refine onList_update held here (x := { o.q.tx r with queued := false, finState := .sent })
      rfl ?_ ?_ ?_
    · intro waits
      exact absurd waits (by simp [Waits, empty])
    · intro queued
      cases queued
    · intro k other member
      exact mem_tail_of_ne first other member
  | dataSent drainObs id rest r f more c first here out working wire =>
    exact onList_afterData held first here out
  | dataLost id rest r f more c first here out wire failed =>
    refine onList_update held here (x := { o.q.tx r with out := (o.q.tx r).out.tail }) rfl ?_ ?_ ?_
    · intro _
      exact held.marked id r here (.inl (by simp [out]))
    · intro queued
      exact held.present id r here queued
    · intro k other member
      exact member

theorem onList_queueStream {o : Outward} (held : OnList o) {id : Nat} {r : Ref} (x : Tx)
    (here : o.reg.streams.lookup id = some r) (mark : x.queued = (o.q.tx r).queued) :
    OnList ⟨o.reg, queueStream id r (o.q.setTx r x), o.conn⟩ := by
  unfold queueStream
  simp only [setTx_same]
  split
  · rename_i queued
    refine onList_update held here (x := x) rfl ?_ ?_ ?_
    · intro _
      exact queued
    · intro _
      exact held.present id r here (mark ▸ queued)
    · intro k other member
      exact member
  · refine onList_update held here (x := { x with queued := true }) ?_ ?_ ?_ ?_
    · simp [Queues.setTx]
    · intro _
      rfl
    · intro _
      simp
    · intro k other member
      exact List.mem_append_left _ member

theorem onList_exec (cfg : Endpoint) (c : Oracle) (a : Section) {s : Session}
    (held : OnList (outward s)) : OnList (outward (exec cfg c a s).1) := by
  by_cases other : queues a = false
  · exact Edits.preserve (fun _ _ => onList_edit) (exec_edits cfg c held.listed other) held
  · cases a
    case frameData r p =>
      simp only [exec, UmuxOutbound.frameData]
      split
      · exact held
      · split
        · rename_i live
          exact onList_queueStream held _ (live_iff.mp live) rfl
        · exact held
    case enqueueFin r =>
      simp only [exec, UmuxOutbound.enqueueFin]
      split
      · rename_i live
        exact onList_queueStream held _ (live_iff.mp live.2) rfl
      · exact held
    all_goals exact absurd rfl other

theorem onList_new (cfg : Endpoint) (now : Nat) : OnList (outward (newSession cfg now).state) := by
  refine ⟨⟨?_, ?_⟩, ?_, ?_⟩ <;>
  · intro id r there
    simp only [outward, newSession, AList.lookup_empty] at there
    cases there

theorem onList_run {cfg : Endpoint} {now : Nat} {p : Pool Session Section}
    (run : Reachable (program cfg) (newSession cfg now) p) : OnList (outward p.state) := by
  refine owed_invariant (fun s _ => OnList (outward s)) (onList_new cfg now) ?_ ?_ run
  · intro s others a entry held
    exact held
  · intro s others a c ready allowed held
    exact onList_exec cfg c a held

/-- In every reachable state a stream of the table with frames or a FIN to send is
    marked queued and on the list. -/
theorem no_stranded_frame {cfg : Endpoint} {now : Nat} {p : Pool Session Section}
    (run : Reachable (program cfg) (newSession cfg now) p) {id : Nat} {r : Ref}
    (live : p.state.reg.streams.lookup id = some r)
    (waits : (p.state.box.tx r).out ≠ [] ∨ (p.state.box.tx r).finState = .queued) :
    (p.state.box.tx r).queued = true ∧ id ∈ p.state.box.pending := by
  have held := onList_run run
  have marked := held.marked id r live waits
  exact ⟨marked, held.present id r live marked⟩

def openAndWrite : List (Move Section Oracle) :=
  [.run 0 {}, .run 0 {}, .run 0 {}, .run 0 {}, .start (.openStream []), .run 1 {}, .run 1 {},
    .run 1 {}, .start .turnRead, .run 2 {}, .run 2 {}, .run 2 {},
    .run 2 { incoming := .frame (UmuxFrame.control .windowUpdate { ack := true } 1 0) },
    .run 2 {}, .run 2 {}, .run 2 {}, .start (.write 0 [1, 2, 3]), .run 3 {}, .run 3 {}]

theorem no_stranded_frame_after_write :
    ∃ p, Reachable (program (endpoint {} true)) (newSession (endpoint {} true) 0) p ∧
      (p.state.box.tx 0).out ≠ [] ∧ (p.state.box.tx 0).queued = true ∧ 1 ∈ p.state.box.pending := by
  obtain ⟨p, run, checked⟩ := replay_reaches (P := program (endpoint {} true))
    (p := newSession (endpoint {} true) 0) openAndWrite
    (fun p => p.state.reg.streams.lookup 1 = some 0 && !(p.state.box.tx 0).out.isEmpty) (by decide)
  simp only [Bool.and_eq_true, decide_eq_true_eq, Bool.not_eq_true', List.isEmpty_eq_false_iff]
    at checked
  exact ⟨p, run, checked.2, no_stranded_frame run checked.1 (.inl checked.2)⟩

end UmuxStranded
