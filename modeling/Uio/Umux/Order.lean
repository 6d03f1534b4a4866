import Uio.Umux.Birth
import Uio.Umux.Flags
import Uio.Umux.Successors

/-!
What one stream hands to the transport. Of a stream in the table, the bytes in the
frames handed over, the bytes in its queue and those its running write has still to
frame are together the bytes its writes accepted, in that order. The FIN is queued
under the write lock, after the last write, and handed over once the queue is empty.
-/
namespace UmuxOrder
open Interleaving UmuxFrame UmuxOutbox UmuxSession UmuxMachine UmuxEdits UmuxFlags UmuxBirth
open UmuxOutbound
open UmuxFootprint (touches)
variable {q : Queues} (id : Nat) {a : Section} {others : Multiset Section}

def bytesOf (frames : List Frame) : List UInt8 := frames.flatMap Frame.payload

def isFin (f : Frame) : Bool := f.hdr.flags.fin

def finCount (frames : List Frame) : Nat := frames.countP isFin

@[simp] theorem bytesOf_nil : bytesOf [] = [] := rfl

@[simp] theorem bytesOf_cons (f : Frame) (frames : List Frame) :
    bytesOf (f :: frames) = f.payload ++ bytesOf frames := by simp [bytesOf]

@[simp] theorem bytesOf_append (first second : List Frame) :
    bytesOf (first ++ second) = bytesOf first ++ bytesOf second := by simp [bytesOf]

/-- A frame that `frameData` made: one chunk of at most `limit` bytes. -/
def Chunk (limit id : Nat) (f : Frame) : Prop :=
  ∃ chunk, f = dataFrame id chunk ∧ 0 < chunk.length ∧ chunk.length ≤ limit

theorem chunk_plain {limit id : Nat} {f : Frame} (chunk : Chunk limit id f) : isFin f = false := by
  obtain ⟨bytes, rfl, -⟩ := chunk
  rfl

def Here (o : Outward) (r : Ref) : Prop := o.reg.streams.lookup (o.reg.idOf r) = some r

/-- One stream's frames against the bytes `acc` its writes accepted, of which `rest`
    are still to be framed. `ended` says that CloseWrite ended the direction, and
    `owing` that its FIN is still to be queued. -/
structure Sent (limit : Nat) (acc rest : List UInt8) (ended owing : Bool) (r : Ref) (o : Outward) :
    Prop where
  listed : Listed o.reg
  old : r < o.reg.fresh
  carried : Here o r → o.conn.failed = false →
    acc = bytesOf (o.q.handed r) ++ bytesOf (o.q.tx r).out ++ rest
  begun : bytesOf (o.q.handed r) <+: acc
  chunks : ∀ f ∈ (o.q.tx r).out, Chunk limit (o.reg.idOf r) f
  own : ∀ f ∈ o.q.handed r, Chunk limit (o.reg.idOf r) f ∨ f = finFrame (o.reg.idOf r)
  settled : ended = true → rest = []
  owes : owing = true → ended = true
  queued : Here o r → (o.q.tx r).finState = .queued → ended = true
  asked : Here o r → ended = true → owing = false → (o.q.tx r).finState ≠ .none
  fin : (finCount (o.q.handed r) = 0 ∧ (Here o r → (o.q.tx r).finState ≠ .sent)) ∨
    (ended = true ∧ (Here o r → (o.q.tx r).finState = .sent ∧ (o.q.tx r).out = []) ∧
      ∃ frames, o.q.handed r = frames ++ [finFrame (o.reg.idOf r)] ∧ finCount frames = 0 ∧
        bytesOf frames = acc)

section
variable {cfg : Endpoint} {limit : Nat} {acc rest : List UInt8} {ended owing : Bool} {r : Ref}
  {o : Outward}

theorem sent_unmoved (held : Sent limit acc rest ended owing r o) {o' : Outward}
    (listed : Listed o'.reg) (old : r < o'.reg.fresh) (id : o'.reg.idOf r = o.reg.idOf r)
    (here : Here o' r → Here o r) (failed : o.conn.failed = true → o'.conn.failed = true)
    (handed : o'.q.handed r = o.q.handed r) (out : (o'.q.tx r).out = (o.q.tx r).out)
    (finState : (o'.q.tx r).finState = (o.q.tx r).finState) :
    Sent limit acc rest ended owing r o' := by
  refine ⟨listed, old, ?_, ?_, ?_, ?_, held.settled, held.owes, ?_, ?_, ?_⟩
  · intro there working
    rw [handed, out]
    refine held.carried (here there) ?_
    cases before : o.conn.failed with
    | false => rfl
    | true =>
      rw [failed before] at working
      cases working
  · rw [handed]
    exact held.begun
  · rw [out, id]
    exact held.chunks
  · rw [handed, id]
    exact held.own
  · rw [finState]
    exact fun there => held.queued (here there)
  · rw [finState]
    exact fun there => held.asked (here there)
  · rw [handed, out, finState, id]
    rcases held.fin with ⟨none, unsent⟩ | ⟨complete, sent, frames⟩
    · exact .inl ⟨none, fun there => unsent (here there)⟩
    · exact .inr ⟨complete, fun there => sent (here there), frames⟩

theorem here_of_lookup (held : Sent limit acc rest ended owing r o) {id : Nat}
    (found : o.reg.streams.lookup id = some r) : Here o r ∧ o.reg.idOf r = id := by
  have own := (held.listed.streams id r found).2
  exact ⟨by rw [Here, own]; exact found, own⟩

theorem sent_data (held : Sent limit acc rest ended owing r o) {f : Frame} {more : List Frame}
    {c : Conn} (here : Here o r) (out : (o.q.tx r).out = f :: more)
    (working : o.conn.failed = false) (handed : q.handed r = o.q.handed r ++ [f])
    (left : (q.tx r).out = more) (finState : (q.tx r).finState = (o.q.tx r).finState) :
    Sent limit acc rest ended owing r ⟨o.reg, q, c⟩ := by
  have balance := held.carried here working
  have chunk := held.chunks f (by rw [out]; exact List.mem_cons_self)
  have unsent : finCount (o.q.handed r) = 0 ∧ (o.q.tx r).finState ≠ .sent := by
    rcases held.fin with ⟨none, unsent⟩ | ⟨-, sent, -⟩
    · exact ⟨none, unsent here⟩
    · have empty := (sent here).2
      rw [out] at empty
      cases empty
  refine ⟨held.listed, held.old, ?_, ?_, ?_, ?_, held.settled, held.owes, ?_, ?_, ?_⟩
  · intro _ _
    simp only [handed, left, bytesOf_append, bytesOf_cons, bytesOf_nil, List.append_nil]
    rw [balance, out]
    simp
  · rw [handed, balance, out]
    simp
  · intro g member
    rw [left] at member
    exact held.chunks g (by rw [out]; exact List.mem_cons_of_mem f member)
  · rw [handed]
    exact List.forall_mem_append.mpr ⟨held.own, List.forall_mem_singleton.mpr (.inl chunk)⟩
  · rw [finState]
    exact held.queued
  · rw [finState]
    exact held.asked
  · refine .inl ⟨?_, fun _ => by rw [finState]; exact unsent.2⟩
    simp only [handed, finCount, List.countP_append] at unsent ⊢
    simp [unsent.1, chunk_plain chunk]

theorem sent_fin (held : Sent limit acc rest ended owing r o) {c : Conn}
    (here : Here o r) (empty : (o.q.tx r).out = []) (fin : (o.q.tx r).finState = .queued)
    (working : o.conn.failed = false)
    (handed : q.handed r = o.q.handed r ++ [finFrame (o.reg.idOf r)])
    (out : (q.tx r).out = []) (finState : (q.tx r).finState = .sent) :
    Sent limit acc rest ended owing r ⟨o.reg, q, c⟩ := by
  have complete := held.queued here fin
  have all : acc = bytesOf (o.q.handed r) := by
    rw [held.carried here working, empty, held.settled complete]
    simp
  have unsent : finCount (o.q.handed r) = 0 := by
    rcases held.fin with ⟨none, -⟩ | ⟨-, sent, -⟩
    · exact none
    · have done := (sent here).1
      rw [fin] at done
      cases done
  have carried : bytesOf (q.handed r) = acc := by
    rw [handed, all]
    simp [finFrame, UmuxFrame.control]
  refine ⟨held.listed, held.old, ?_, ?_, ?_, ?_, held.settled, held.owes, ?_, ?_, ?_⟩
  · intro _ _
    simp only [out, held.settled complete, bytesOf_nil, List.append_nil]
    exact carried.symm
  · rw [carried]
  · intro g member
    rw [out] at member
    cases member
  · rw [handed]
    exact List.forall_mem_append.mpr ⟨held.own, List.forall_mem_singleton.mpr (.inr rfl)⟩
  · intro _ _
    exact complete
  · intro _ _ _
    rw [finState]
    decide
  · exact .inr ⟨complete, fun _ => ⟨finState, out⟩, o.q.handed r, handed, unsent, all.symm⟩

theorem sent_lost (held : Sent limit acc rest ended owing r o) {f : Frame} {more : List Frame}
    {c : Conn} (here : Here o r) (out : (o.q.tx r).out = f :: more)
    (handed : q.handed r = o.q.handed r) (left : (q.tx r).out = more)
    (finState : (q.tx r).finState = (o.q.tx r).finState) (failed : c.failed = true) :
    Sent limit acc rest ended owing r ⟨o.reg, q, c⟩ := by
  refine ⟨held.listed, held.old, ?_, ?_, ?_, ?_, held.settled, held.owes, ?_, ?_, ?_⟩
  · intro _ working
    rw [failed] at working
    cases working
  · rw [handed]
    exact held.begun
  · intro g member
    rw [left] at member
    exact held.chunks g (by rw [out]; exact List.mem_cons_of_mem f member)
  · rw [handed]
    exact held.own
  · rw [finState]
    exact held.queued
  · rw [finState]
    exact held.asked
  · rw [handed, finState]
    rcases held.fin with unsent | ⟨-, sent, -⟩
    · exact .inl unsent
    · have empty := (sent here).2
      rw [out] at empty
      cases empty

theorem tx_unqueue_other {p : Ref} (other : r ≠ p) : (unqueue p q).tx r = q.tx r :=
  setTx_other _ _ other

theorem tx_afterData_other (drainObs : Bool) (id : Nat) (q : Queues) {p : Ref} (other : r ≠ p) :
    (afterData drainObs id p q).tx r = q.tx r := by
  have popped : (popOut p q).tx r = q.tx r := setTx_other _ _ other
  unfold afterData
  simp only
  repeat' split
  · exact (tx_unqueue_other other).trans popped
  · exact (tx_unqueue_other other).trans popped
  · exact popped

theorem handed_afterData {drainObs : Bool} {id : Nat} {p : Ref} :
    (afterData drainObs id p q).handed = q.handed := by
  unfold afterData
  simp only
  repeat' split
  all_goals rfl

theorem tx_afterData_same (drainObs : Bool) (id : Nat) (q : Queues) :
    ((afterData drainObs id r q).tx r).out = (q.tx r).out.tail ∧
      ((afterData drainObs id r q).tx r).finState = (q.tx r).finState := by
  unfold afterData
  simp only
  repeat' split
  all_goals simp [unqueue, popOut, Queues.popPending]

theorem sent_edit (held : Sent limit acc rest ended owing r o) {o' : Outward} (edit : Edit cfg o o') :
    Sent limit acc rest ended owing r o' := by
  have listed := listed_edit edit held.listed
  cases edit with
  | shrunk streams openWait fewer waits =>
    exact sent_unmoved held listed held.old rfl (fewer _ r) id rfl rfl rfl
  | created id openWait nextID waits =>
    have apart : r ≠ o.reg.fresh := Nat.ne_of_lt held.old
    have same : Function.update o.reg.idOf o.reg.fresh id r = o.reg.idOf r :=
      Function.update_of_ne apart _ _
    have tx : (Queues.create o.q o.reg.fresh).tx r = o.q.tx r := setTx_other _ _ apart
    refine sent_unmoved held listed (Nat.lt_succ_of_lt held.old) same ?_ (fun h => h)
      (Function.update_of_ne apart _ _) (by rw [tx]) (by rw [tx])
    intro there
    have found : (Registry.create o.reg id openWait nextID).streams.lookup
        (Function.update o.reg.idOf o.reg.fresh id r) = some r := there
    rw [same, lookup_create] at found
    split at found
    · cases found
      exact absurd rfl apart
    · exact found
  | aside q control pending tx handed =>
    exact sent_unmoved held listed held.old rfl id id
      (by simp only [handed]) (by simp only [tx]) (by simp only [tx])
  | spoke c wire failed =>
    exact sent_unmoved held listed held.old rfl id failed rfl rfl rfl
  | controlQueued f sends notData | cleared empty =>
    exact sent_unmoved held listed held.old rfl id id rfl rfl rfl
  | controlSent f rest c first working wire =>
    refine sent_unmoved held listed held.old rfl id ?_ rfl rfl rfl
    intro failed
    rw [working] at failed
    cases failed
  | dropped p unlisted =>
    by_cases own : r = p
    · subst p
      have gone : ¬ Here o r := unlisted _
      refine ⟨listed, held.old, fun here => absurd here gone, held.begun, ?_, held.own,
        held.settled, held.owes, fun here => absurd here gone, fun here => absurd here gone, ?_⟩
      · intro f member
        simp [dropOutLocked] at member
      · rcases held.fin with ⟨none, -⟩ | ⟨complete, -, frames⟩
        · exact .inl ⟨none, fun here => absurd here gone⟩
        · exact .inr ⟨complete, fun here => absurd here gone, frames⟩
    · have tx : (dropOutLocked p o.q).tx r = o.q.tx r := setTx_other _ _ own
      exact sent_unmoved held listed held.old rfl id id rfl
        (by simp only [tx]) (by simp only [tx])
  | skipped id rest first gone =>
    exact sent_unmoved held listed held.old rfl (fun h => h) (fun h => h) rfl rfl rfl
  | unqueued id rest p first found empty noFin =>
    by_cases own : r = p
    · subst p
      exact sent_unmoved held listed held.old rfl (fun h => h) (fun h => h) rfl
        (by simp [unqueue]) (by simp [unqueue])
    · exact sent_unmoved held listed held.old rfl (fun h => h) (fun h => h) rfl
        (by simp only [tx_unqueue_other own]) (by simp only [tx_unqueue_other own])
  | finSent id rest p c first found empty fin working wire =>
    by_cases own : r = p
    · subst p
      obtain ⟨here, sameId⟩ := here_of_lookup held found
      refine sent_fin held here empty fin working ?_ ?_ ?_
      · simp [afterFin, Queues.hand, Queues.setTx, Queues.popPending, sameId]
      · simpa [afterFin, Queues.hand, Queues.setTx, Queues.popPending] using empty
      · simp [afterFin, Queues.hand, Queues.setTx, Queues.popPending]
    · refine sent_unmoved held listed held.old rfl (fun h => h) ?_ ?_ ?_ ?_
      · intro failed
        rw [working] at failed
        cases failed
      all_goals simp [afterFin, Queues.hand, Queues.setTx, Queues.popPending, own]
  | dataSent drainObs id rest p f more c first found out working wire =>
    by_cases own : r = p
    · subst p
      obtain ⟨here, -⟩ := here_of_lookup held found
      have after := tx_afterData_same (r := r) drainObs id (o.q.hand r f)
      refine sent_data held here out working ?_ ?_ after.2
      · rw [handed_afterData]
        simp [Queues.hand]
      · rw [after.1]
        simp [Queues.hand, out]
    · have tx := tx_afterData_other drainObs id (o.q.hand p f) own
      refine sent_unmoved held listed held.old rfl (fun h => h) ?_ ?_ ?_ ?_
      · intro failed
        rw [working] at failed
        cases failed
      · rw [handed_afterData]
        simp [Queues.hand, own]
      · simp only [tx]
        rfl
      · simp only [tx]
        rfl
  | dataLost id rest p f more c first found out wire failed =>
    by_cases own : r = p
    · subst p
      obtain ⟨here, -⟩ := here_of_lookup held found
      exact sent_lost held here out rfl (by simp [popOut, out]) (by simp [popOut]) failed
    · have tx : (popOut p o.q).tx r = o.q.tx r := setTx_other _ _ own
      exact sent_unmoved held listed held.old rfl (fun h => h) (fun _ => failed) rfl
        (by simp only [tx]) (by simp only [tx])

end

def holderOf : Section → Option Ref
  | .frameData r _ | .writeDone r _ | .enqueueFin r | .closeWriteDone r => some r
  | _ => none

def locker : Section → Option Ref
  | .write r _ | .writeOwned r _ | .closeWrite r => some r
  | a => holderOf a

def holders (r : Ref) (owing : Multiset Section) : Multiset Section :=
  owing.filter fun b => holderOf b = some r

theorem holders_add (r : Ref) (first second : Multiset Section) :
    holders r (first + second) = holders r first + holders r second :=
  Multiset.filter_add _ first second

theorem holders_cons_own {r : Ref} (holds : holderOf a = some r)
    (others : Multiset Section) : holders r (a ::ₘ others) = a ::ₘ holders r others :=
  Multiset.filter_cons_of_pos others holds

theorem holders_cons_other {r : Ref} (apart : holderOf a ≠ some r)
    (others : Multiset Section) : holders r (a ::ₘ others) = holders r others :=
  Multiset.filter_cons_of_neg others apart

theorem group_of_holder {b : Section} {r : Ref} (holds : holderOf b = some r) :
    UmuxSuccessors.group b = .holder := by
  cases b <;> first | rfl | cases holds

theorem pushed_holder (cfg : Endpoint) (c : Oracle) {a b : Section} {s : Session} {r : Ref}
    (pushed : b ∈ (exec cfg c a s).2) (holds : holderOf b = some r) : locker a = some r := by
  have grouped := UmuxSuccessors.pushed_group cfg c pushed
  rw [group_of_holder holds] at grouped
  cases a
  case write q p =>
    simp only [exec, write] at pushed
    split at pushed
    · cases pushed
    · rw [List.mem_singleton.mp pushed] at holds
      exact holds
  case writeOwned q p =>
    simp only [exec, writeOwned] at pushed
    split at pushed
    · cases pushed
    · rw [List.mem_singleton.mp pushed] at holds
      exact holds
  case frameData q p =>
    simp only [exec, frameData] at pushed
    (repeat' split at pushed) <;>
    · rw [List.mem_singleton.mp pushed] at holds
      exact holds
  case closeWrite q =>
    simp only [exec, closeWrite] at pushed
    split at pushed
    · cases pushed
    · rw [List.mem_singleton.mp pushed] at holds
      exact holds
  case enqueueFin q =>
    simp only [exec, enqueueFin] at pushed
    split at pushed <;>
    · rw [List.mem_singleton.mp pushed] at holds
      exact holds
  all_goals exact absurd grouped Bool.false_ne_true

theorem holders_exec (cfg : Endpoint) (c : Oracle) {s : Session} {r : Ref}
    (others : Multiset Section) (other : locker a ≠ some r) :
    holders r (↑(exec cfg c a s).2 + others) = holders r (a ::ₘ others) := by
  have none : holders r ↑(exec cfg c a s).2 = 0 := by
    rw [holders, Multiset.filter_eq_nil]
    intro b member holds
    exact other (pushed_holder cfg c (Multiset.mem_coe.mp member) holds)
  have keeps : holderOf a ≠ some r := by
    intro holds
    apply other
    cases a <;> first | exact holds | cases holds
  rw [holders_add, holders_cons_other keeps, none, Multiset.zero_add]

/-- What the holder of a stream's write lock has still to do: the lock, the bytes left
    to frame, and whether the FIN is left to queue. -/
inductive Progress (owing : Multiset Section) (r : Ref) : Bool → List UInt8 → Bool → Prop where
  | free (alone : holders r owing = 0) : Progress owing r false [] false
  | framing (p : List UInt8) (alone : holders r owing = {.frameData r p}) :
      Progress owing r true p false
  | written (framed : Bool) (alone : holders r owing = {.writeDone r framed}) :
      Progress owing r true [] false
  | ending (alone : holders r owing = {.enqueueFin r}) : Progress owing r true [] true
  | closed (alone : holders r owing = {.closeWriteDone r}) : Progress owing r true [] false

theorem progress_congr {owing owing' : Multiset Section} {r : Ref} {held owed : Bool}
    {rest : List UInt8} (same : holders r owing' = holders r owing)
    (progress : Progress owing r held rest owed) : Progress owing' r held rest owed := by
  cases progress with
  | free alone => exact .free (same.trans alone)
  | framing p alone => exact .framing _ (same.trans alone)
  | written framed alone => exact .written framed (same.trans alone)
  | ending alone => exact .ending (same.trans alone)
  | closed alone => exact .closed (same.trans alone)

theorem exec_lock (cfg : Endpoint) (c : Oracle) {s : Session} {r : Ref}
    (other : locker a ≠ some r) (old : r < s.reg.fresh) :
    (exec cfg c a s).1.wmu r = s.wmu r ∧ (exec cfg c a s).1.accepted r = s.accepted r := by
  by_cases made : creates a = true
  · have same := creates_old cfg c made old
    exact ⟨congrArg Object.wmu same, congrArg Object.accepted same⟩
  · by_cases untouched : touches a .credit = false
    · rw [UmuxFootprint.exec_wmu cfg c s untouched, UmuxFootprint.exec_accepted cfg c s untouched]
      exact ⟨rfl, rfl⟩
    · cases a
      case write q p =>
        have apart : r ≠ q := fun same => other (by rw [same]; rfl)
        simp only [exec, write]
        split
        · exact ⟨rfl, rfl⟩
        · simp [takeCredit, Session.setWmu, apart]
      case writeOwned q p =>
        have apart : r ≠ q := fun same => other (by rw [same]; rfl)
        simp only [exec, writeOwned]
        split
        · exact ⟨rfl, rfl⟩
        · simp [takeCredit, Session.setWmu, apart]
      case writeDone q framed =>
        have apart : r ≠ q := fun same => other (by rw [same]; rfl)
        simp [exec, writeDone, Session.setWmu, apart]
      case closeWrite q =>
        have apart : r ≠ q := fun same => other (by rw [same]; rfl)
        simp only [exec, closeWrite]
        split
        · exact ⟨rfl, rfl⟩
        · simp [Session.setLife, Session.setWatch, Session.setWmu, apart]
      case closeWriteDone q =>
        have apart : r ≠ q := fun same => other (by rw [same]; rfl)
        simp [exec, closeWriteDone, Session.setWmu, apart]
      case establish q w delta => exact ⟨rfl, rfl⟩
      case grantWindow q delta =>
        simp only [exec, UmuxInbound.grantWindow]
        (repeat' split) <;> exact ⟨rfl, rfl⟩
      all_goals first | exact absurd rfl untouched | exact absurd rfl made

theorem tx_queueStream_other {q r : Ref} (x : Tx) (b : Queues) (other : r ≠ q) :
    (queueStream id q (b.setTx q x)).tx r = b.tx r ∧
      (queueStream id q (b.setTx q x)).handed = b.handed := by
  unfold queueStream
  split
  · exact ⟨setTx_other _ _ other, rfl⟩
  · exact ⟨(setTx_other _ _ other).trans (setTx_other _ _ other), rfl⟩

theorem tx_queueStream_same {r : Ref} (x : Tx) (b : Queues) :
    ((queueStream id r (b.setTx r x)).tx r).out = x.out ∧
      ((queueStream id r (b.setTx r x)).tx r).finState = x.finState ∧
      (queueStream id r (b.setTx r x)).handed = b.handed := by
  unfold queueStream
  split <;> simp [Queues.setTx]

/-- The account of one stream in a state with the given sections owed. -/
def Account (cfg : Endpoint) (r : Ref) (s : Session) (owing : Multiset Section) : Prop :=
  ∃ rest owed, Progress owing r (s.wmu r) rest owed ∧
    Sent cfg.maxFrame (s.accepted r) rest (s.life r).localFIN owed r (outward s)

structure Ordered (cfg : Endpoint) (s : Session) (owing : Multiset Section) : Prop where
  listed : Listed s.reg
  unborn : ∀ r, s.reg.fresh ≤ r → holders r owing = 0
  streams : ∀ r, r < s.reg.fresh → Account cfg r s owing

section
variable {cfg : Endpoint} {c : Oracle} {s : Session} {r : Ref}

theorem sent_exec {rest : List UInt8} {owed : Bool} (other : locker a ≠ some r)
    (held : Sent cfg.maxFrame (s.accepted r) rest (s.life r).localFIN owed r (outward s)) :
    Sent cfg.maxFrame ((exec cfg c a s).1.accepted r) rest ((exec cfg c a s).1.life r).localFIN
      owed r (outward (exec cfg c a s).1) := by
  have ends : a ≠ .closeWrite r := fun same => other (by rw [same]; rfl)
  rw [(exec_lock cfg c other held.old).2, exec_localFIN cfg c ends held.old]
  by_cases edits : queues a = false
  · exact Edits.preserve (fun o o' edit held => sent_edit held edit)
      (exec_edits cfg c held.listed edits) held
  · cases a
    case frameData q p =>
      have apart : r ≠ q := fun same => other (by rw [same]; rfl)
      simp only [exec, frameData]
      split
      · exact held
      · split
        · have moved := tx_queueStream_other (s.reg.idOf q)
            { s.box.tx q with out := (s.box.tx q).out ++ [dataFrame (s.reg.idOf q) (p.take cfg.maxFrame)] }
            s.box.toQueues apart
          exact sent_unmoved held held.listed held.old rfl id id
            (congrFun moved.2 r) (congrArg Tx.out moved.1) (congrArg Tx.finState moved.1)
        · exact held
    case enqueueFin q =>
      have apart : r ≠ q := fun same => other (by rw [same]; rfl)
      simp only [exec, enqueueFin]
      split
      · have moved := tx_queueStream_other (s.reg.idOf q)
          { s.box.tx q with finState := .queued } s.box.toQueues apart
        exact sent_unmoved held held.listed held.old rfl id id
          (congrFun moved.2 r) (congrArg Tx.out moved.1) (congrArg Tx.finState moved.1)
      · exact held
    all_goals exact absurd rfl edits

theorem sent_accept (held : Sent cfg.maxFrame (s.accepted r) [] (s.life r).localFIN false r
    (outward s)) (open_ : (s.life r).localFIN = false) (p : List UInt8) :
    Sent cfg.maxFrame (s.accepted r ++ p) p false false r (outward s) := by
  have unsent : finCount ((outward s).q.handed r) = 0 ∧
      (Here (outward s) r → ((outward s).q.tx r).finState ≠ .sent) := by
    rcases held.fin with unsent | ⟨complete, -⟩
    · exact unsent
    · rw [open_] at complete
      cases complete
  rw [open_] at held
  refine ⟨held.listed, held.old, ?_, held.begun.trans (List.prefix_append _ _), held.chunks,
    held.own, nofun, nofun, held.queued, nofun, .inl unsent⟩
  intro here working
  rw [held.carried here working, List.append_nil]

theorem sent_close (held : Sent cfg.maxFrame (s.accepted r) [] (s.life r).localFIN false r
    (outward s)) (open_ : (s.life r).localFIN = false) :
    Sent cfg.maxFrame (s.accepted r) [] true true r (outward s) := by
  refine ⟨held.listed, held.old, held.carried, held.begun, held.chunks, held.own, fun _ => rfl,
    fun _ => rfl, fun _ _ => rfl, nofun, ?_⟩
  rcases held.fin with unsent | ⟨complete, -⟩
  · exact .inl unsent
  · rw [open_] at complete
    cases complete

theorem sent_frame {p : List UInt8} (full : p ≠ []) (live : Here (outward s) r)
    (held : Sent cfg.maxFrame (s.accepted r) p (s.life r).localFIN false r (outward s)) :
    Sent cfg.maxFrame (s.accepted r) (p.drop cfg.maxFrame) (s.life r).localFIN false r
      ⟨s.reg, enqueue (s.reg.idOf r) r (dataFrame (s.reg.idOf r) (p.take cfg.maxFrame))
        s.box.toQueues, s.box.conn⟩ := by
  have running : (s.life r).localFIN = false := by
    cases ended : (s.life r).localFIN with
    | false => rfl
    | true => exact absurd (held.settled ended) full
  have unsent : finCount (s.box.handed r) = 0 ∧ (s.box.tx r).finState ≠ .sent := by
    rcases held.fin with ⟨none, unsent⟩ | ⟨complete, -⟩
    · exact ⟨none, unsent live⟩
    · rw [running] at complete
      cases complete
  have chunk : Chunk cfg.maxFrame (s.reg.idOf r)
      (dataFrame (s.reg.idOf r) (p.take cfg.maxFrame)) := by
    refine ⟨_, rfl, ?_, List.length_take_le _ _⟩
    have positive := cfg.frame_positive
    have bytes := List.length_pos_iff.mpr full
    rw [List.length_take]
    omega
  obtain ⟨out, finState, handed⟩ := tx_queueStream_same (s.reg.idOf r) (r := r)
    { s.box.tx r with
      out := (s.box.tx r).out ++ [dataFrame (s.reg.idOf r) (p.take cfg.maxFrame)] } s.box.toQueues
  rw [running] at held ⊢
  refine ⟨held.listed, held.old, ?_, ?_, ?_, ?_, nofun, nofun, ?_, nofun, .inl ?_⟩
  · intro here working
    have balance := held.carried here working
    simp only [enqueue, out, handed, bytesOf_append, bytesOf_cons, bytesOf_nil, List.append_nil]
    rw [balance]
    simp only [outward, dataFrame, List.append_assoc, List.take_append_drop]
  · simp only [enqueue, handed]
    exact held.begun
  · simp only [enqueue, out]
    exact List.forall_mem_append.mpr ⟨held.chunks, List.forall_mem_singleton.mpr chunk⟩
  · simp only [enqueue, handed]
    exact held.own
  · simp only [enqueue, finState]
    exact held.queued
  · simp only [enqueue, handed, finState]
    exact ⟨unsent.1, fun _ => unsent.2⟩

theorem sent_queueFin (live : Here (outward s) r) (none : (s.box.tx r).finState = .none)
    (held : Sent cfg.maxFrame (s.accepted r) [] (s.life r).localFIN true r (outward s)) :
    Sent cfg.maxFrame (s.accepted r) [] (s.life r).localFIN false r
      ⟨s.reg, queueFin (s.reg.idOf r) r s.box.toQueues, s.box.conn⟩ := by
  have unsent : finCount (s.box.handed r) = 0 := by
    rcases held.fin with ⟨unsent, -⟩ | ⟨-, sent, -⟩
    · exact unsent
    · have done := (sent live).1
      simp only [outward, none] at done
      cases done
  have ended := held.owes rfl
  obtain ⟨out, finState, handed⟩ := tx_queueStream_same (s.reg.idOf r) (r := r)
    { s.box.tx r with finState := .queued } s.box.toQueues
  refine ⟨held.listed, held.old, ?_, ?_, ?_, ?_, held.settled, (by simp), fun _ _ => ended, ?_, .inl ?_⟩
  · simp only [queueFin, out, handed]
    exact held.carried
  · simp only [queueFin, handed]
    exact held.begun
  · simp only [queueFin, out]
    exact held.chunks
  · simp only [queueFin, handed]
    exact held.own
  · intro _ _ _
    simp only [queueFin, finState]
    decide
  · simp only [queueFin, handed, finState]
    exact ⟨unsent, fun _ => by decide⟩

theorem holder_alone {a b : Section} (holds : holderOf a = some r)
    (alone : holders r (a ::ₘ others) = {b}) : a = b ∧ holders r others = 0 := by
  rw [holders_cons_own holds] at alone
  obtain ⟨same, none⟩ := (Multiset.singleton_eq_cons_iff _).mp alone.symm
  exact ⟨same.symm, none⟩

theorem holders_single {b : Section} (none : holders r others = 0)
    (holds : holderOf b = some r) : holders r (↑[b] + others) = {b} := by
  rw [Multiset.coe_singleton, Multiset.singleton_add, holders_cons_own holds, none]
  rfl

theorem progress_of_holder {held owed : Bool} {rest : List UInt8} (holds : holderOf a = some r)
    (progress : Progress (a ::ₘ others) r held rest owed) : holders r others = 0 ∧ held = true ∧
      ((a = .frameData r rest ∧ owed = false) ∨
        (rest = [] ∧ ((∃ framed, a = .writeDone r framed ∧ owed = false) ∨
          (a = .enqueueFin r ∧ owed = true) ∨ (a = .closeWriteDone r ∧ owed = false)))) := by
  cases progress with
  | free alone =>
    rw [holders_cons_own holds] at alone
    exact absurd alone Multiset.cons_ne_zero
  | framing p alone =>
    obtain ⟨same, none⟩ := holder_alone holds alone
    exact ⟨none, rfl, .inl ⟨same, rfl⟩⟩
  | written framed alone =>
    obtain ⟨same, none⟩ := holder_alone holds alone
    exact ⟨none, rfl, .inr ⟨rfl, .inl ⟨framed, same, rfl⟩⟩⟩
  | ending alone =>
    obtain ⟨same, none⟩ := holder_alone holds alone
    exact ⟨none, rfl, .inr ⟨rfl, .inr (.inl ⟨same, rfl⟩)⟩⟩
  | closed alone =>
    obtain ⟨same, none⟩ := holder_alone holds alone
    exact ⟨none, rfl, .inr ⟨rfl, .inr (.inr ⟨same, rfl⟩)⟩⟩

theorem account_free (free : s.wmu r = false)
    (apart : holderOf a ≠ some r) (held : Account cfg r s (a ::ₘ others)) : holders r others = 0 ∧
      Sent cfg.maxFrame (s.accepted r) [] (s.life r).localFIN false r (outward s) := by
  obtain ⟨rest, owed, progress, sent⟩ := held
  rw [free] at progress
  cases progress with
  | free alone =>
    rw [holders_cons_other apart] at alone
    exact ⟨alone, sent⟩

theorem account_accept {p : List UInt8}
    (none : holders r others = 0) (open_ : (s.life r).localFIN = false)
    (sent : Sent cfg.maxFrame (s.accepted r) [] (s.life r).localFIN false r (outward s)) :
    Account cfg r (takeCredit s r p) (↑[Section.frameData r p] + others) := by
  refine ⟨p, false, ?_, ?_⟩
  · have locked : (takeCredit s r p).wmu r = true := by
      simp [takeCredit, Session.setWmu]
    rw [locked]
    exact .framing p (holders_single none rfl)
  · have grown : (takeCredit s r p).accepted r = s.accepted r ++ p := by
      simp [takeCredit]
    have same : ((takeCredit s r p).life r).localFIN = false := open_
    rw [grown, same]
    exact sent_accept sent open_ p

theorem account_refused (free : s.wmu r = false) (none : holders r others = 0)
    (sent : Sent cfg.maxFrame (s.accepted r) [] (s.life r).localFIN false r (outward s)) :
    Account cfg r s (↑([] : List Section) + others) := by
  refine ⟨[], false, ?_, sent⟩
  rw [free]
  exact .free (by rw [Multiset.coe_nil, Multiset.zero_add]; exact none)

theorem open_of_writable {l : Life} (writable : UmuxOutbound.writable l ≠ false) :
    l.localFIN = false := by
  cases ended : l.localFIN with
  | false => rfl
  | true => simp [UmuxOutbound.writable, ended] at writable

theorem account_own (own : locker a = some r)
    (ready : UmuxMachine.ready a s = true) (held : Account cfg r s (a ::ₘ others)) :
    Account cfg r (exec cfg c a s).1 (↑(exec cfg c a s).2 + others) := by
  cases a
  case write q p =>
    cases own
    have free : s.wmu r = false := by simpa [UmuxMachine.ready] using (Bool.and_eq_true_iff.mp ready).2
    obtain ⟨none, sent⟩ := account_free free (by simp [holderOf]) held
    simp only [exec, write]
    split
    · exact account_refused free none sent
    · rename_i accepted
      exact account_accept none (open_of_writable fun no => accepted (.inr (.inl no))) sent
  case writeOwned q p =>
    cases own
    have free : s.wmu r = false := by simpa [UmuxMachine.ready] using (Bool.and_eq_true_iff.mp ready).2
    obtain ⟨none, sent⟩ := account_free free (by simp [holderOf]) held
    simp only [exec, writeOwned]
    split
    · exact account_refused free none sent
    · rename_i accepted
      exact account_accept none (open_of_writable fun no => accepted (.inr (.inl no))) sent
  case closeWrite q =>
    cases own
    have free : s.wmu r = false := by simpa [UmuxMachine.ready] using (Bool.and_eq_true_iff.mp ready).2
    obtain ⟨none, sent⟩ := account_free free (by simp [holderOf]) held
    simp only [exec, closeWrite]
    split
    · exact account_refused free none sent
    · rename_i accepted
      simp only [Bool.or_eq_true, not_or, Bool.not_eq_true] at accepted
      refine ⟨[], true, ?_, ?_⟩
      · simp only [Session.setWmu, Function.update_self]
        exact .ending (holders_single none rfl)
      · have ended : ((((s.setLife r { s.life r with localFIN := true }).setWatch r
            { s.time.watch r with halfSince := some s.time.clock }).setWmu r true).life r).localFIN =
              true := by
          simp [Session.setWmu, Session.setWatch, Session.setLife]
        have closed := sent_close sent accepted.2
        rw [ended]
        exact closed
  case frameData q p =>
    cases own
    obtain ⟨rest, owed, progress, sent⟩ := held
    obtain ⟨none, locked, ⟨same, rfl⟩ | ⟨-, ⟨_, wrong, -⟩ | ⟨wrong, -⟩ | ⟨wrong, -⟩⟩⟩ :=
      progress_of_holder rfl progress
    · cases same
      simp only [exec, frameData]
      split
      · rename_i framed
        subst p
        exact ⟨[], false, by rw [locked]; exact .written true (holders_single none rfl), sent⟩
      · rename_i full
        split
        · rename_i live
          refine ⟨p.drop cfg.maxFrame, false, ?_, sent_frame full (live_iff.mp live) sent⟩
          simp only [Session.setQueues, locked]
          exact .framing _ (holders_single none rfl)
        · rename_i gone
          have absent : ¬ Here (outward s) r := fun here => gone (live_iff.mpr here)
          refine ⟨[], false, by rw [locked]; exact .written false (holders_single none rfl), ?_⟩
          exact ⟨sent.listed, sent.old, fun here => absurd here absent, sent.begun, sent.chunks,
            sent.own, fun _ => rfl, sent.owes, sent.queued, sent.asked, sent.fin⟩
    all_goals cases wrong
  case writeDone q framed =>
    cases own
    obtain ⟨rest, owed, progress, sent⟩ := held
    obtain ⟨none, -, ⟨wrong, -⟩ | ⟨rfl, ⟨_, -, rfl⟩ | ⟨wrong, -⟩ | ⟨wrong, -⟩⟩⟩ :=
      progress_of_holder rfl progress
    · cases wrong
    · refine ⟨[], false, ?_, sent⟩
      simp only [exec, writeDone, Session.setWmu, Function.update_self]
      refine .free ?_
      rw [holders_add, none]
      split <;> rfl
    · cases wrong
    · cases wrong
  case enqueueFin q =>
    cases own
    obtain ⟨rest, owed, progress, sent⟩ := held
    obtain ⟨none, locked, ⟨wrong, -⟩ | ⟨rfl, ⟨_, wrong, -⟩ | ⟨-, rfl⟩ | ⟨wrong, -⟩⟩⟩ :=
      progress_of_holder rfl progress
    · cases wrong
    · cases wrong
    · simp only [exec, enqueueFin]
      split
      · rename_i queue
        refine ⟨[], false, ?_, sent_queueFin (live_iff.mp queue.2) queue.1 sent⟩
        simp only [Session.setQueues, locked]
        exact .closed (holders_single none rfl)
      · rename_i kept
        refine ⟨[], false, by rw [locked]; exact .closed (holders_single none rfl), ?_⟩
        refine ⟨sent.listed, sent.old, sent.carried, sent.begun, sent.chunks, sent.own,
          sent.settled, (by simp), sent.queued, ?_, sent.fin⟩
        intro here _ _ unqueued
        exact kept ⟨unqueued, live_iff.mpr here⟩
    · cases wrong
  case closeWriteDone q =>
    cases own
    obtain ⟨rest, owed, progress, sent⟩ := held
    obtain ⟨none, -, ⟨wrong, -⟩ | ⟨rfl, ⟨_, wrong, -⟩ | ⟨wrong, -⟩ | ⟨-, rfl⟩⟩⟩ :=
      progress_of_holder rfl progress
    · cases wrong
    · cases wrong
    · cases wrong
    · refine ⟨[], false, ?_, sent⟩
      simp only [exec, closeWriteDone, Session.setWmu, Function.update_self]
      refine .free ?_
      rw [holders_add, none]
      rfl
  all_goals cases own

end

theorem sent_born {cfg : Endpoint} {limit : Nat} {r : Ref} {o o' : Outward} (listed : Listed o.reg)
    (unborn : o.reg.fresh ≤ r) (edits : Edits cfg o o') (born : r < o'.reg.fresh) :
    Sent limit [] [] false false r o' := by
  have kept : ∀ o o', Edit cfg o o' →
      (Listed o.reg ∧ (r < o.reg.fresh → Sent limit [] [] false false r o)) →
      (Listed o'.reg ∧ (r < o'.reg.fresh → Sent limit [] [] false false r o')) := by
    intro o o' edit ⟨listed, held⟩
    refine ⟨listed_edit edit listed, ?_⟩
    intro there
    by_cases old : r < o.reg.fresh
    · exact sent_edit (held old) edit
    · have listed' := listed_edit edit listed
      cases edit with
      | created id openWait nextID waits =>
        obtain rfl := Nat.le_antisymm (Nat.lt_succ_iff.mp there) (Nat.not_lt.mp old)
        have handed : (Queues.create o.q o.reg.fresh).handed o.reg.fresh = [] :=
          Function.update_self _ _ _
        have tx : (Queues.create o.q o.reg.fresh).tx o.reg.fresh = {} := setTx_same _ _ _
        constructor
        case listed => exact listed'
        case old => exact there
        case fin => exact .inl ⟨by simp [handed, finCount], fun _ => by simp [tx]⟩
        all_goals simp [handed, tx]
      | _ => exact absurd there old
  exact (Edits.preserve (I := fun o =>
    Listed o.reg ∧ (r < o.reg.fresh → Sent limit [] [] false false r o)) kept edits
    ⟨listed, fun old => absurd old (Nat.not_lt.mpr unborn)⟩).2 born

theorem locker_of_creates (made : creates a = true) (r : Ref) : locker a ≠ some r := by
  cases a <;> first | (intro wrong; cases wrong; done) | cases made

theorem queues_of_creates (made : creates a = true) : queues a = false := by
  cases a <;> first | rfl | cases made

theorem locker_old {cfg : Endpoint} {s : Session} {r : Ref}
    (ready : ready a s = true) (held : Ordered cfg s (a ::ₘ others)) (own : locker a = some r) :
    r < s.reg.fresh := by
  by_cases holds : holderOf a = some r
  · by_contra unborn
    have none := held.unborn r (Nat.not_lt.mp unborn)
    rw [holders_cons_own holds] at none
    exact Multiset.cons_ne_zero none
  · have subject := (Bool.and_eq_true_iff.mp ready).1
    cases a <;> first
      | (cases own; simpa [UmuxMachine.subject] using subject)
      | exact absurd own holds

theorem ordered_exec (cfg : Endpoint) (c : Oracle) (a : Section) {s : Session}
    (ready : ready a s = true) (held : Ordered cfg s (a ::ₘ others)) :
    Ordered cfg (exec cfg c a s).1 (↑(exec cfg c a s).2 + others) := by
  refine ⟨listed_exec cfg c a held.listed, ?_, ?_⟩
  · intro r unborn
    have before : s.reg.fresh ≤ r := Nat.le_trans (fresh_grows cfg c a s) unborn
    have other : locker a ≠ some r :=
      fun own => absurd (locker_old ready held own) (Nat.not_lt.mpr before)
    rw [holders_exec cfg c others other]
    exact held.unborn r before
  · intro r there
    by_cases old : r < s.reg.fresh
    · by_cases own : locker a = some r
      · exact account_own own ready (held.streams r old)
      · obtain ⟨rest, owed, progress, sent⟩ := held.streams r old
        refine ⟨rest, owed, ?_, sent_exec own sent⟩
        rw [(exec_lock cfg c own old).1]
        exact progress_congr (holders_exec cfg c others own) progress
    · have before : s.reg.fresh ≤ r := Nat.not_lt.mp old
      obtain ⟨made, next, blank⟩ := exec_born cfg c before there
      have wmu : (exec cfg c a s).1.wmu r = false := blank.wmu
      have accepted : (exec cfg c a s).1.accepted r = [] := blank.accepted
      have localFIN : ((exec cfg c a s).1.life r).localFIN = false := blank.localFIN
      refine ⟨[], false, ?_, ?_⟩
      · rw [wmu]
        refine .free ?_
        rw [holders_exec cfg c others (locker_of_creates made r)]
        exact held.unborn r before
      · rw [accepted, localFIN]
        exact sent_born held.listed before
          (exec_edits cfg c held.listed (queues_of_creates made)) there

theorem ordered_new (cfg : Endpoint) (now : Nat) :
    Ordered cfg (newSession cfg now).state (owed (newSession cfg now)) := by
  refine ⟨listed_new cfg now, ?_, ?_⟩
  · intro r _
    rfl
  · intro r there
    exact absurd there (Nat.not_lt_zero r)

theorem holders_entry (entry : (isCall a || isEvent a) = true) (r : Ref) : holderOf a ≠ some r := by
  cases a <;> first | (intro wrong; cases wrong; done) | cases entry

theorem ordered_run {cfg : Endpoint} {now : Nat} {p : Pool Session Section}
    (run : Reachable (program cfg) (newSession cfg now) p) : Ordered cfg p.state (owed p) := by
  refine owed_invariant (Ordered cfg) (ordered_new cfg now) ?_ ?_ run
  · intro s others a entry held
    have same : ∀ r, holders r (a ::ₘ others) = holders r others :=
      fun r => holders_cons_other (holders_entry entry r) others
    refine ⟨held.listed, fun r unborn => (same r).trans (held.unborn r unborn), ?_⟩
    intro r there
    obtain ⟨rest, owed, progress, sent⟩ := held.streams r there
    exact ⟨rest, owed, progress_congr (same r) progress, sent⟩
  · intro s others a c ready _ held
    exact ordered_exec cfg c a ready held

/-- The frames of stream `r` that the transport accepted, against the bytes the
    stream's writes accepted. `rest` is what a write that still runs has to frame. -/
structure InOrder (s : Session) (r : Ref) : Prop where
  own : ∀ f ∈ s.box.handed r, f.hdr.streamID = s.reg.idOf r
  begun : bytesOf (s.box.handed r) <+: s.accepted r
  complete : s.live r = true → s.box.conn.failed = false →
    ∃ rest, s.accepted r = bytesOf (s.box.handed r) ++ bytesOf (s.box.tx r).out ++ rest ∧
      (s.wmu r = false → rest = [])
  once : finCount (s.box.handed r) ≤ 1
  last : ∀ before f after, s.box.handed r = before ++ f :: after → isFin f = true →
    after = [] ∧ bytesOf before = s.accepted r ∧ (s.life r).localFIN = true
  emitted : s.live r = true → s.wmu r = false → (s.life r).localFIN = true →
    (s.box.tx r).finState ≠ .queued → finCount (s.box.handed r) = 1

theorem finCount_append (first second : List Frame) :
    finCount (first ++ second) = finCount first + finCount second := List.countP_append

theorem last_of_finCount {frames before after : List Frame} {fin f : Frame}
    (plain : finCount frames = 0) (split : frames ++ [fin] = before ++ f :: after)
    (ends : isFin f = true) : after = [] ∧ before = frames := by
  rcases List.eq_nil_or_concat after with rfl | ⟨init, last, rfl⟩
  · exact ⟨rfl, (List.append_inj' split rfl).1.symm⟩
  · have front : frames = before ++ f :: init := by
      have whole : frames ++ [fin] = (before ++ f :: init) ++ [last] := by
        rw [split]
        simp
      exact (List.append_inj' whole rfl).1
    rw [front, finCount_append] at plain
    simp [finCount, ends] at plain

theorem stream_in_order {cfg : Endpoint} {now : Nat} {p : Pool Session Section}
    (run : Reachable (program cfg) (newSession cfg now) p) {r : Ref}
    (there : r < p.state.reg.fresh) : InOrder p.state r := by
  obtain ⟨rest, owed, progress, sent⟩ := (ordered_run run).streams r there
  constructor
  case own =>
    intro f handed
    rcases sent.own f handed with ⟨chunk, rfl, -⟩ | rfl <;> rfl
  case begun => exact sent.begun
  case complete =>
    intro live working
    refine ⟨rest, sent.carried (live_iff.mp live) working, ?_⟩
    intro unlocked
    rw [unlocked] at progress
    cases progress
    rfl
  case once =>
    rcases sent.fin with ⟨none, -⟩ | ⟨-, -, frames, handed, plain, -⟩
    · exact none.trans_le (Nat.zero_le 1)
    · have handed : p.state.box.handed r = _ := handed
      rw [handed, finCount_append, plain]
      exact Nat.le_refl 1
  case last =>
    intro before f after split ends
    rcases sent.fin with ⟨none, -⟩ | ⟨ended, -, frames, handed, plain, bytes⟩
    · have none : finCount (p.state.box.handed r) = 0 := none
      rw [split, finCount_append] at none
      simp [finCount, ends] at none
    · obtain ⟨rfl, rfl⟩ := last_of_finCount plain (handed.symm.trans split) ends
      exact ⟨rfl, bytes, ended⟩
  case emitted =>
    intro live unlocked ended settled
    have here := live_iff.mp live
    rw [unlocked] at progress
    cases progress
    have asked := sent.asked here ended rfl
    rcases sent.fin with ⟨-, notSent⟩ | ⟨-, -, frames, handed, plain, -⟩
    · have notSent := notSent here
      cases state : ((outward p.state).q.tx r).finState with
      | none => exact absurd state asked
      | queued => exact absurd state settled
      | sent => exact absurd state notSent
    · have handed : p.state.box.handed r = _ := handed
      rw [handed, finCount_append, plain]
      rfl

/-- A client writes five bytes and half closes; the transport refuses the first pass,
    and takes the frame and then the FIN in the next ones. -/
def writeAndHalfClose : List (Move Section Oracle) :=
  [.run 0 {}, .run 0 {}, .run 0 {}, .run 0 {}, .start (.openStream []), .run 1 {}, .run 1 {},
    .run 1 {}, .start .turnRead, .run 2 {}, .run 2 {}, .run 2 {},
    .run 2 { incoming := .frame (UmuxFrame.control .windowUpdate { ack := true } 1 0) },
    .run 2 {}, .run 2 {}, .run 2 {}, .start (.write 0 [1, 2, 3, 4, 5]), .run 3 {}, .run 3 {},
    .run 3 {}, .run 3 {}, .start (.closeWrite 0), .run 4 {}, .run 4 {}, .run 4 {},
    .start .flush, .run 5 { answers := [.overflow] },
    .start .flush, .run 6 { answers := [.accept 0, .overflow] },
    .start .flush, .run 7 { answers := [.accept 0] }]

theorem stream_in_order_after_half_close :
    ∃ p, Reachable (program (endpoint {} true)) (newSession (endpoint {} true) 0) p ∧
      p.state.box.handed 0 = [dataFrame 1 [1, 2, 3, 4, 5], finFrame 1] ∧ InOrder p.state 0 := by
  obtain ⟨p, run, checked⟩ := replay_reaches (P := program (endpoint {} true))
    (p := newSession (endpoint {} true) 0) writeAndHalfClose
    (fun p => p.state.box.handed 0 = [dataFrame 1 [1, 2, 3, 4, 5], finFrame 1] &&
      (0 < p.state.reg.fresh : Bool)) (by decide)
  simp only [Bool.and_eq_true, decide_eq_true_eq] at checked
  exact ⟨p, run, checked.1, stream_in_order run checked.2⟩

end UmuxOrder
