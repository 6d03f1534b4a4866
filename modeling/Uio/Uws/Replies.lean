import Uio.RingBuffer
import Uio.Spans

/-!
The ledger that follows a connection's replies through the transport's queue. A position
counts bytes since the ledger began. Direct replies are recorded where the queue ends,
batched ones by their offset until the batch is handed over. Beside the ledger stands
what it is for: the set of recorded positions and the set of positions the replies have.
-/
namespace UwsReplies
open RingBuffers Spans
variable (low : Int) {batched : Bool} (lag : Nat)

def replyRuns : Nat := 8

structure Ledger where
  sent : Int
  runs : RingBuffer Span
  total : Int
  batch : Span
  batchMore : List Span
  batched : Int

def newReplyLedger : Ledger where
  sent := 0
  runs := ⟨List.replicate replyRuns default, 0, 0, by decide, by decide⟩
  total := 0
  batch := default
  batchMore := []
  batched := 0

namespace Ledger

def retireLoop (sent : Int) : Nat → Ledger → Ledger
  | 0, l => l
  | fuel + 1, l =>
    if 0 < l.runs.count ∧ (l.runs.item 0).stop ≤ sent then
      retireLoop sent fuel { l with total := l.total - (l.runs.item 0).size, runs := l.runs.pop }
    else l

def retire (l : Ledger) (sent : Int) : Ledger := retireLoop sent l.runs.count l

def openRun (l : Ledger) (start stop : Int) : Ledger :=
  { l with runs := l.runs.push ⟨stop - start, stop⟩, total := l.total + (stop - start) }

def extendRun (l : Ledger) (last : Span) (start stop : Int) : Ledger :=
  { l with
    runs := l.runs.put (l.runs.count - 1) ⟨last.size + (stop - start), stop⟩
    total := l.total + (stop - start) }

def place (l : Ledger) (n stop : Int) : Ledger :=
  let start := max (stop - n) l.sent
  if 0 < l.runs.count then
    let last := l.runs.item (l.runs.count - 1)
    let start := max start last.stop
    if stop ≤ start then l
    else if last.stop = start then l.extendRun last start stop
    else l.openRun start stop
  else if stop ≤ start then l
  else l.openRun start stop

def add (l : Ledger) (n stop : Int) : Ledger :=
  if n ≤ 0 then l else (l.retire l.sent).place n stop

def addBatched (l : Ledger) (n stop : Int) : Ledger :=
  if l.batch.size ≠ 0 ∧ l.batch.stop ≠ stop - n then
    { l with
      batched := l.batched + n
      batchMore := l.batchMore ++ [l.batch]
      batch := ⟨n, stop⟩ }
  else { l with batched := l.batched + n, batch := ⟨l.batch.size + n, stop⟩ }

/-- The additions of `placeBatch`. Each loads `sent`, which the transport's reports may
have raised since the one before. -/
def placeRuns (base : Int) : List Nat → List Span → Ledger → Ledger
  | _, [], l => l
  | reports, run :: rest, l =>
    placeRuns base reports.tail rest
      (add { l with sent := l.sent + reports.headD 0 } run.size (base + run.stop))

def placeBatch (l : Ledger) (size stop : Int) (accepted : Bool) (reports : List Nat) : Ledger :=
  { (if accepted then placeRuns (stop - size) reports (l.batchMore ++ [l.batch]) l else l) with
    batch := default
    batchMore := []
    batched := 0 }

def queued (l : Ledger) : Int × Ledger :=
  let l := l.retire l.sent
  if l.runs.count = 0 then (0, l)
  else
    let first := l.runs.item 0
    let left := first.stop - l.sent
    (if left < first.size then l.total - (first.size - left) else l.total, l)

end Ledger

/-- `batch` is the length of the write batch, `queue` where the transport's queue ends,
counted from where the ledger began or, without one, from the bytes reported so far.
`recorded` are the positions the replies were recorded at, `pending` the offsets of the
replies in the batch, `placed` the positions the replies really have. -/
structure Conn where
  replies : Option Ledger
  batch : Int
  queue : Int
  recorded : Finset Int
  pending : Finset Int
  placed : Finset Int

namespace Conn

def sent (c : Conn) : Int := (c.replies.map Ledger.sent).getD 0

/-- `lag` bytes have left the queue that were not in the count of sent bytes yet. -/
def outboundBuffered (c : Conn) (lag : Nat) : Int := c.queue - c.sent - lag

def queueEnd (c : Conn) (lag : Nat) : Int := c.sent + c.outboundBuffered lag

/-- Records the reply of the last `n` bytes, in the queue or in the batch. -/
def record (c : Conn) (l : Ledger) (n : Int) (batched : Bool) (lag : Nat) : Conn :=
  if batched then
    { c with
      replies := some (l.addBatched n c.batch)
      pending := c.pending ∪ stretch (c.batch - n) c.batch }
  else
    { c with
      replies := some (l.add n (c.queueEnd lag))
      recorded := c.recorded ∪
        (stretch (c.queueEnd lag - n) (c.queueEnd lag)).filter fun p => ∀ q ∈ c.recorded, q < p
      placed := c.placed ∪ stretch (c.queue - n) c.queue }

def noteReply (low : Int) (c : Conn) (n : Int) (batched : Bool) (lag : Nat) : Conn :=
  if n ≤ 0 then c
  else
    match c.replies with
    | some l => c.record l n batched lag
    -- A reply into a drained queue is not followed.
    | none =>
      if batched = false ∧ c.outboundBuffered lag ≤ low then c
      else c.record newReplyLedger n batched lag

def handOver (c : Conn) (accepted : Bool) (lag : Nat) (reports : List Nat) : Conn :=
  let after : Conn :=
    { c with batch := 0, queue := if accepted then c.queue + c.batch else c.queue, pending := ∅ }
  let base := after.queueEnd lag - c.batch
  match c.replies with
  | none => after
  | some l =>
    if l.batched = 0 then after
    else
      { after with
        replies := some (l.placeBatch c.batch (after.queueEnd lag) accepted reports)
        recorded := if accepted then
            c.recorded ∪ (c.pending.image (base + ·)).filter fun p => ∀ q ∈ c.recorded, q < p
          else c.recorded
        placed := if accepted then c.placed ∪ c.pending.image (c.queue + ·) else c.placed }

def transportSent (c : Conn) (n : Nat) : Conn :=
  match c.replies with
  | none => { c with queue := c.queue - n }
  | some l => { c with replies := some { l with sent := l.sent + n } }

def releaseReplies (c : Conn) : Conn :=
  match c.replies with
  | none => c
  | some l =>
    if l.batched ≠ 0 then c
    else if l.queued.1 = 0 then
      { c with replies := none, queue := c.queue - l.sent, recorded := ∅, placed := ∅ }
    else { c with replies := some l.queued.2 }

end Conn

inductive Event where
  | reply (n lag : Nat)
  | other (n : Nat)
  | batchReply (n : Nat)
  | batchOther (n : Nat)
  | handOver (accepted : Bool) (lag : Nat) (reports : List Nat)
  | sent (n : Nat)
  | queued
  | release

def step (low : Int) (c : Conn) : Event → Conn
  | .reply n lag => Conn.noteReply low { c with queue := c.queue + n } n false lag
  | .other n => { c with queue := c.queue + n }
  | .batchReply n => Conn.noteReply low { c with batch := c.batch + n } n true 0
  | .batchOther n => { c with batch := c.batch + n }
  | .handOver accepted lag reports => c.handOver accepted lag reports
  | .sent n => c.transportSent n
  | .queued => { c with replies := c.replies.map fun l => l.queued.2 }
  | .release => c.releaseReplies

def run (low : Int) (events : List Event) : Conn :=
  events.foldl (step low) ⟨none, 0, 0, ∅, ∅, ∅⟩

structure Follows (l : Ledger) (recorded : Finset Int) : Prop where
  apart : Apart l.runs.toList
  total : l.total = sizes l.runs.toList
  live : ∀ p, l.sent < p → (p ∈ positions l.runs.toList ↔ p ∈ recorded)

def Current (l : Ledger) : Prop := ∀ s ∈ l.runs.toList, l.sent < s.stop

def SameBatch (l after : Ledger) : Prop :=
  after = { l with runs := after.runs, total := after.total }

section Ledger
variable {l : Ledger} {recorded : Finset Int}

theorem follows_new : Follows newReplyLedger ∅ := by
  have empty : newReplyLedger.runs.toList = [] := rfl
  refine ⟨?_, ?_, ?_⟩ <;> rw [empty]
  · exact ⟨nofun, .nil⟩
  · rfl
  · intro p _
    simp [positions]

theorem follows_pop (follows : Follows l recorded) (some : 0 < l.runs.count)
    (left : (l.runs.item 0).stop ≤ l.sent) :
    Follows { l with total := l.total - (l.runs.item 0).size, runs := l.runs.pop } recorded := by
  obtain ⟨apart, total, live⟩ := follows
  rw [l.runs.toList_pop some] at apart total live
  refine ⟨apart.tail, ?_, ?_⟩
  · simp only [total, sizes, List.map_cons, List.sum_cons]
    omega
  · intro p above
    rw [← live p above, positions, Finset.mem_union, mem_stretch]
    constructor
    · exact .inr
    · rintro (⟨-, low⟩ | inside)
      · simp only at above
        omega
      · exact inside

theorem current_head (apart : Apart l.runs.toList) (some : 0 < l.runs.count)
    (stays : l.sent < (l.runs.item 0).stop) : Current l := by
  rw [l.runs.toList_pop some] at apart
  intro s inside
  rw [l.runs.toList_pop some] at inside
  rcases List.mem_cons.1 inside with rfl | later
  · exact stays
  · have beyond := apart.above (stop_mem apart.tail later)
    omega

theorem retireLoop_follows {fuel : Nat} (follows : Follows l recorded)
    (enough : l.runs.count ≤ fuel) : Follows (Ledger.retireLoop l.sent fuel l) recorded ∧
      Current (Ledger.retireLoop l.sent fuel l) ∧
      SameBatch l (Ledger.retireLoop l.sent fuel l) := by
  induction fuel generalizing l with
  | zero =>
    have empty := l.runs.toList_empty (by omega)
    refine ⟨follows, ?_, rfl⟩
    rw [Current, Ledger.retireLoop, empty]
    nofun
  | succ fuel ih =>
    rw [Ledger.retireLoop]
    split
    · rename_i leaves
      have fewer : l.runs.pop.count ≤ fuel := by
        simp only [RingBuffer.pop]
        omega
      obtain ⟨kept, current, same⟩ := ih (follows_pop follows leaves.1 leaves.2) fewer
      refine ⟨kept, current, ?_⟩
      rw [SameBatch, same]
    · rename_i stays
      refine ⟨follows, ?_, rfl⟩
      by_cases some : 0 < l.runs.count
      · exact current_head follows.apart some (by omega)
      · have empty := l.runs.toList_empty (by omega)
        rw [Current, empty]
        nofun

theorem beyond_recorded (follows : Follows l recorded) (current : Current l) {p : Int}
    (above : l.sent < p) : (∀ q ∈ recorded, q < p) ↔ ∀ s ∈ l.runs.toList, s.stop < p := by
  constructor
  · intro beyond s inside
    have live := (follows.live s.stop (current s inside)).1 (stop_mem follows.apart inside)
    exact beyond _ live
  · intro beyond q inside
    by_cases left : q ≤ l.sent
    · omega
    · obtain ⟨s, member, -, high⟩ := mem_positions.1 ((follows.live q (by omega)).2 inside)
      have below := beyond s member
      omega

/-- What is recorded once a run of `n` up to `stop` joins it; places behind its last are lost. -/
abbrev withRun (recorded : Finset Int) (n stop : Int) : Finset Int :=
  recorded ∪ (stretch (stop - n) stop).filter fun p => ∀ q ∈ recorded, q < p

def Clipped (l : Ledger) (n stop start : Int) : Prop :=
  ∀ p, l.sent < p → (start < p ↔ stop - n < p ∧ ∀ s ∈ l.runs.toList, s.stop < p)

theorem follows_placed (follows : Follows l recorded) (current : Current l) {n stop start : Int}
    {after : Ledger} (clipped : Clipped l n stop start)
    (apart : Apart after.runs.toList) (total : after.total = sizes after.runs.toList)
    (sent : after.sent = l.sent) (covers : positions after.runs.toList =
      positions l.runs.toList ∪ stretch start stop) : Follows after
      (withRun recorded n stop) := by
  refine ⟨apart, total, ?_⟩
  intro p above
  rw [sent] at above
  rw [covers, Finset.mem_union, Finset.mem_union, follows.live p above, mem_stretch,
    Finset.mem_filter, mem_stretch, clipped p above, beyond_recorded follows current above]
  exact or_congr_right (by tauto)

theorem follows_openRun (follows : Follows l recorded) (current : Current l)
    {n start stop : Int} (room : start < stop) (gap : ∀ s ∈ l.runs.toList, s.stop < start)
    (clipped : Clipped l n stop start) :
    Follows (l.openRun start stop) (withRun recorded n stop) := by
  have first : (⟨stop - start, stop⟩ : Span).start = start := by
    simp only [Span.start]
    omega
  have runs : (l.openRun start stop).runs.toList = l.runs.toList ++ [⟨stop - start, stop⟩] :=
    l.runs.toList_push _
  apply follows_placed follows current clipped
  · rw [runs]
    exact apart_open follows.apart (by simp only; omega) (by rw [first]; exact gap)
  · rw [runs, sizes_append, ← follows.total]
    simp [Ledger.openRun, sizes]
  · rfl
  · rw [runs, positions_append, positions, first]
    simp [positions]

theorem follows_extendRun (follows : Follows l recorded) (current : Current l)
    {n stop : Int} (some : 0 < l.runs.count) (room : (l.runs.item (l.runs.count - 1)).stop < stop)
    (clipped : Clipped l n stop (l.runs.item (l.runs.count - 1)).stop) : Follows
      (l.extendRun (l.runs.item (l.runs.count - 1)) (l.runs.item (l.runs.count - 1)).stop stop)
      (withRun recorded n stop) := by
  have last := l.runs.toList_last some
  have apart := follows.apart
  have total := follows.total
  rw [last] at apart total
  have runs := l.runs.toList_put_last some
    ⟨(l.runs.item (l.runs.count - 1)).size + (stop - (l.runs.item (l.runs.count - 1)).stop), stop⟩
  apply follows_placed follows current clipped
  · simp only [Ledger.extendRun, runs]
    exact apart_extend apart (by omega)
  · simp only [Ledger.extendRun, runs, total, sizes_append]
    simp [sizes]
    omega
  · rfl
  · simp only [Ledger.extendRun, runs]
    rw [positions_extend apart (by omega), ← last]

theorem follows_clipped (follows : Follows l recorded) (current : Current l)
    {n start stop : Int} (nothing : stop ≤ start) (clipped : Clipped l n stop start) :
    Follows l (withRun recorded n stop) := by
  apply follows_placed follows current clipped follows.apart follows.total rfl
  refine (Finset.union_eq_left.mpr fun p inside => ?_).symm
  rw [mem_stretch] at inside
  omega

theorem follows_place (follows : Follows l recorded) (current : Current l) (n stop : Int) :
    Follows (l.place n stop) (withRun recorded n stop) := by
  unfold Ledger.place
  by_cases some : 0 < l.runs.count
  · have last := l.runs.toList_last some
    have newest : ∀ s ∈ l.runs.toList, s.stop ≤ (l.runs.item (l.runs.count - 1)).stop := by
      have apart := follows.apart
      rw [last] at apart ⊢
      intro s inside
      exact le_last apart (stop_mem apart inside)
    have member : l.runs.item (l.runs.count - 1) ∈ l.runs.toList := by
      rw [last]
      exact List.mem_append_right _ (List.mem_singleton_self _)
    generalize ends : l.runs.item (l.runs.count - 1) = final at *
    have clipped : Clipped l n stop (max (max (stop - n) l.sent) final.stop) := by
      intro p above
      constructor
      · intro beyond
        refine ⟨by omega, fun s inside => ?_⟩
        have low := newest s inside
        omega
      · rintro ⟨beyond, all⟩
        have low := all final member
        omega
    simp only [if_pos some]
    split
    · exact follows_clipped follows current ‹_› clipped
    split
    · rename_i room same
      rw [← same] at clipped room ⊢
      rw [← ends] at clipped room ⊢
      exact follows_extendRun follows current some (by omega) clipped
    · apply follows_openRun follows current (by omega) _ clipped
      intro s inside
      have low := newest s inside
      omega
  · have empty := l.runs.toList_empty (by omega)
    have clipped : Clipped l n stop (max (stop - n) l.sent) := by
      intro p above
      rw [empty]
      simp [above]
    simp only [if_neg some]
    split
    · exact follows_clipped follows current ‹_› clipped
    · exact follows_openRun follows current (by omega) (by rw [empty]; nofun) clipped

theorem place_sameBatch (n stop : Int) : SameBatch l (l.place n stop) := by
  unfold Ledger.place
  dsimp only
  split
  · split
    · rfl
    · split <;> rfl
  · split <;> rfl

theorem SameBatch.trans {a b c : Ledger} (left : SameBatch a b) (right : SameBatch b c) :
    SameBatch a c := by
  rw [SameBatch, right, left]

theorem retire_follows (follows : Follows l recorded) :
    Follows (l.retire l.sent) recorded ∧ Current (l.retire l.sent) ∧
      SameBatch l (l.retire l.sent) :=
  retireLoop_follows follows le_rfl

theorem add_follows (follows : Follows l recorded) {n : Int} (stop : Int) (some : 0 < n) :
    Follows (l.add n stop) (withRun recorded n stop) ∧ SameBatch l (l.add n stop) := by
  obtain ⟨kept, current, same⟩ := retire_follows follows
  rw [Ledger.add, if_neg (by omega)]
  exact ⟨follows_place kept current n stop, same.trans (place_sameBatch n stop)⟩

theorem follows_raise (follows : Follows l recorded) {sent : Int} (later : l.sent ≤ sent) :
    Follows { l with sent := sent } recorded :=
  ⟨follows.apart, follows.total, fun p above => follows.live p (by simp only at above; omega)⟩

theorem queued_follows (follows : Follows l recorded) :
    l.queued.1 = ((recorded.filter (l.sent < ·)).card : Int) ∧
      Follows l.queued.2 recorded ∧ SameBatch l l.queued.2 := by
  obtain ⟨kept, current, same⟩ := retire_follows follows
  have sent : (l.retire l.sent).sent = l.sent := by rw [same]
  have rest : l.queued.2 = l.retire l.sent := by
    unfold Ledger.queued
    dsimp only
    split <;> rfl
  have live : recorded.filter (l.sent < ·) =
      (positions (l.retire l.sent).runs.toList).filter (l.sent < ·) := by
    ext p
    simp only [Finset.mem_filter, and_congr_left_iff]
    intro above
    exact (kept.live p (by omega)).symm
  rw [rest, live]
  refine ⟨?_, kept, same⟩
  unfold Ledger.queued
  generalize l.retire l.sent = r at *
  by_cases empty : r.runs.count = 0
  · simp [empty, r.runs.toList_empty empty, positions]
  · have apart := kept.apart
    have total := kept.total
    rw [r.runs.toList_pop (by omega)] at apart total
    have reaches : l.sent < (r.runs.item 0).stop := by
      rw [← sent]
      apply current
      rw [r.runs.toList_pop (by omega)]
      exact List.mem_cons_self
    simp only [if_neg empty]
    rw [r.runs.toList_pop (by omega), card_above apart reaches, ← total, sent]
    split <;> omega

end Ledger

section Batch
variable {l : Ledger} {recorded pending : Finset Int} {size : Int}

def recordedBatch (base : Int) (pending recorded : Finset Int) : Finset Int :=
  recorded ∪ (pending.image (base + ·)).filter fun p => ∀ q ∈ recorded, q < p

theorem recordedBatch_cons {base : Int} {run : Span} {rest : List Span}
    (apart : Apart (run :: rest)) : recordedBatch base (positions rest)
        (withRun recorded run.size (base + run.stop)) =
      recordedBatch base (positions (run :: rest)) recorded := by
  ext p
  simp only [recordedBatch, positions, Span.start, Finset.mem_union, Finset.mem_filter,
    Finset.mem_image, mem_stretch]
  constructor
  · rintro ((old | ⟨⟨low, high⟩, beyond⟩) | ⟨⟨o, inside, rfl⟩, beyond⟩)
    · exact .inl old
    · exact .inr ⟨⟨p - base, .inl (by omega), by omega⟩, beyond⟩
    · exact .inr ⟨⟨o, .inr inside, rfl⟩, fun q old => beyond q (.inl old)⟩
  · rintro (old | ⟨⟨o, ⟨low, high⟩ | inside, rfl⟩, beyond⟩)
    · exact .inl (.inl old)
    · exact .inl (.inr ⟨⟨by omega, by omega⟩, beyond⟩)
    · refine .inr ⟨⟨o, inside, rfl⟩, ?_⟩
      rintro q (old | ⟨⟨-, high⟩, -⟩)
      · exact beyond q old
      · have above := apart.above inside
        omega

theorem placeRuns_follows (base : Int) (reports : List Nat) {runs : List Span}
    (follows : Follows l recorded) (apart : Apart runs) :
    Follows (Ledger.placeRuns base reports runs l)
      (recordedBatch base (positions runs) recorded) := by
  induction runs generalizing l recorded reports with
  | nil =>
    simpa [Ledger.placeRuns, recordedBatch, positions] using follows
  | cons run rest ih =>
    rw [Ledger.placeRuns, ← recordedBatch_cons apart]
    have raised := follows_raise follows
      (show l.sent ≤ l.sent + ((reports.headD 0 : Nat) : Int) by omega)
    exact ih _ (add_follows raised _ (apart.positive run List.mem_cons_self)).1 apart.tail

inductive Batches (l : Ledger) (pending : Finset Int) (size : Int) : Prop where
  | none (batched : l.batched = 0) (batch : l.batch = default) (more : l.batchMore = [])
      (empty : pending = ∅)
  | some (batched : 0 < l.batched) (apart : Apart (l.batchMore ++ [l.batch]))
      (covers : positions (l.batchMore ++ [l.batch]) = pending) (inside : l.batch.stop ≤ size)

theorem batches_same {after : Ledger} (batches : Batches l pending size)
    (same : SameBatch l after) : Batches after pending size := by
  rw [same]
  cases batches with
  | none batched batch more empty => exact .none batched batch more empty
  | some batched apart covers inside => exact .some batched apart covers inside

theorem batches_grow {longer : Int} (batches : Batches l pending size) (grows : size ≤ longer) :
    Batches l pending longer := by
  cases batches with
  | none batched batch more empty => exact .none batched batch more empty
  | some batched apart covers inside => exact .some batched apart covers (by omega)

theorem addBatched_batches (batches : Batches l pending size) {n : Int} (positive : 0 < n) :
    Batches (l.addBatched n (size + n)) (pending ∪ stretch size (size + n)) (size + n) := by
  cases batches with
  | none batched batch more empty =>
    have eq : l.addBatched n (size + n) = { l with batched := n, batch := ⟨n, size + n⟩ } := by
      rw [Ledger.addBatched, if_neg (by rw [batch]; exact fun both => both.1 rfl), batched, batch]
      simp [default]
    rw [eq]
    refine .some positive ?_ ?_ (Int.le_refl _)
    · simp only [more, List.nil_append]
      exact ⟨by simpa using positive, List.pairwise_singleton _ _⟩
    · simp [more, empty, positions, Span.start]
  | some batched apart covers inside =>
    have size_pos := apart.positive l.batch (List.mem_append_right _ (List.mem_singleton_self _))
    unfold Ledger.addBatched
    split
    · rename_i gap
      have start : (⟨n, size + n⟩ : Span).start = size := by
        simp only [Span.start]
        omega
      refine .some (by simp only; omega) ?_ ?_ (Int.le_refl _)
      · apply apart_open apart positive
        intro s old
        have low := le_last apart (stop_mem apart old)
        simp only [start]
        omega
      · simp only
        rw [positions_append, covers, positions, start]
        simp [positions]
    · rename_i joined
      have meets : l.batch.stop = size := by omega
      have longer : (⟨l.batch.size + n, size + n⟩ : Span) =
          ⟨l.batch.size + (size + n - l.batch.stop), size + n⟩ := by
        rw [meets]
        congr 1
        omega
      refine .some (by simp only; omega) ?_ ?_ (Int.le_refl _)
      · simp only [longer]
        exact apart_extend apart (by omega)
      · simp only [longer]
        rw [positions_extend apart (by omega), covers, meets]

end Batch

section Runs

/-- With a ledger its runs and batch are the recorded positions and offsets; without one
nothing is followed. -/
structure Follower (c : Conn) : Prop where
  none : c.replies = none → c.recorded = ∅ ∧ c.pending = ∅ ∧ c.placed = ∅
  some : ∀ l, c.replies = some l → Follows l c.recorded ∧ Batches l c.pending c.batch
  batch : 0 ≤ c.batch
  offsets : ∀ o ∈ c.pending, 0 < o ∧ o ≤ c.batch
  queue : ∀ p ∈ c.placed, p ≤ c.queue

def Event.exact : Event → Bool
  | .reply _ lag | .handOver _ lag _ => lag == 0
  | _ => true

theorem queueEnd_eq (c : Conn) (lag : Nat) : c.queueEnd lag = c.queue - lag := by
  simp only [Conn.queueEnd, Conn.outboundBuffered]
  omega

theorem batches_new (size : Int) : Batches newReplyLedger ∅ size := .none rfl rfl rfl rfl

section Steps
variable {c : Conn} {n : Int}

/-- What a reply of `n` bytes finds: the ledger it is given to, before the bytes. -/
structure Ready (c : Conn) (l : Ledger) (batched : Bool) (n : Int) : Prop where
  positive : 0 < n
  follows : Follows l c.recorded
  batches : Batches l c.pending (if batched then c.batch - n else c.batch)
  batch : 0 ≤ if batched then c.batch - n else c.batch
  offsets : ∀ o ∈ c.pending, 0 < o ∧ o ≤ if batched then c.batch - n else c.batch
  queue : ∀ p ∈ c.placed, p ≤ if batched then c.queue else c.queue - n

theorem follower_record {l : Ledger} (ready : Ready c l batched n) (lag : Nat) :
    Follower (c.record l n batched lag) := by
  obtain ⟨positive, follows, batches, batch, offsets, queue⟩ := ready
  cases batched with
  | true =>
    simp only [if_true] at batches batch offsets queue
    have added := addBatched_batches batches positive
    rw [Int.sub_add_cancel] at added
    refine ⟨(by rintro ⟨⟩), ?_, ?_, ?_, queue⟩
    · rintro - ⟨⟩
      refine ⟨?_, added⟩
      unfold Ledger.addBatched
      split <;> exact ⟨follows.apart, follows.total, follows.live⟩
    · simp only [Conn.record, if_true]
      omega
    · intro o inside
      simp only [Conn.record, if_true, Finset.mem_union, mem_stretch] at inside ⊢
      rcases inside with old | new
      · have := offsets o old
        omega
      · omega
  | false =>
    simp only [Bool.false_eq_true, if_false] at batches batch offsets queue
    obtain ⟨kept, same⟩ := add_follows follows (c.queueEnd lag) positive
    refine ⟨(by rintro ⟨⟩), ?_, batch, offsets, ?_⟩
    · rintro - ⟨⟩
      exact ⟨kept, batches_same batches same⟩
    · intro p inside
      simp only [Conn.record, Bool.false_eq_true, if_false, Finset.mem_union,
        mem_stretch] at inside ⊢
      rcases inside with old | new
      · have := queue p old
        omega
      · omega

theorem exact_record {l : Ledger} (ready : Ready c l batched n) (exact : c.recorded = c.placed) :
    (c.record l n batched 0).recorded = (c.record l n batched 0).placed := by
  obtain ⟨-, -, -, -, -, queue⟩ := ready
  cases batched with
  | true => exact exact
  | false =>
    simp only [Bool.false_eq_true, if_false] at queue
    have all : (stretch (c.queue - n) c.queue).filter (fun p => ∀ q ∈ c.placed, q < p) =
        stretch (c.queue - n) c.queue := by
      apply Finset.filter_true_of_mem
      intro p inside q old
      have low := queue q old
      simp only [mem_stretch] at inside
      omega
    simp only [Conn.record, Bool.false_eq_true, if_false, queueEnd_eq, exact, Nat.cast_zero,
      Int.sub_zero, all]

/-- The connection as the bytes of a reply have just been added to it. -/
def Follower.Before (c : Conn) (batched : Bool) (n : Nat) : Prop :=
  Follower { c with
    batch := if batched then c.batch - n else c.batch
    queue := if batched then c.queue else c.queue - n }

theorem ready_some {l : Ledger} {n : Nat} (before : Follower.Before c batched n)
    (positive : 0 < n) (given : c.replies = some l) : Ready c l batched n := by
  obtain ⟨follows, batches⟩ := before.some l given
  exact ⟨by omega, follows, batches, before.batch, before.offsets, before.queue⟩

theorem ready_new {n : Nat} (before : Follower.Before c batched n)
    (positive : 0 < n) (absent : c.replies = none) : Ready c newReplyLedger batched n := by
  obtain ⟨recorded, pending, placed⟩ := before.none absent
  simp only at recorded pending placed
  refine ⟨by omega, ?_, ?_, before.batch, before.offsets, before.queue⟩
  · rw [recorded]
    exact follows_new
  · rw [pending]
    exact batches_new _

theorem follower_after {n : Nat} (before : Follower.Before c batched n) :
    c.replies = none → Follower c := by
  intro absent
  obtain ⟨recorded, pending, placed⟩ := before.none absent
  simp only at recorded pending placed
  have batch := before.batch
  refine ⟨before.none, fun l given => (nomatch absent.symm.trans given), ?_, ?_, ?_⟩
  · cases batched <;> simp only [if_true, if_false, Bool.false_eq_true] at batch <;> omega
  · rw [pending]
    nofun
  · rw [placed]
    nofun

theorem noteReply_cases {n : Nat} (before : Follower.Before c batched n) :
    (c.noteReply low n batched lag = c ∧ Follower c) ∨
      ∃ l, Ready c l batched n ∧ c.noteReply low n batched lag = c.record l n batched lag := by
  unfold Conn.noteReply
  split
  · rename_i zero
    have same : n = 0 := by omega
    subst same
    refine .inl ⟨rfl, ?_⟩
    simpa [Follower.Before] using before
  split
  · rename_i positive l given
    exact .inr ⟨l, ready_some before (by omega) given, rfl⟩
  · rename_i positive absent
    split
    · exact .inl ⟨rfl, follower_after before absent⟩
    · exact .inr ⟨newReplyLedger, ready_new before (by omega) absent, rfl⟩

theorem follower_handOver (follower : Follower c) (accepted : Bool) (lag : Nat)
    (reports : List Nat) : Follower (c.handOver accepted lag reports) := by
  have longer : c.queue ≤ if accepted then c.queue + c.batch else c.queue := by
    have batch := follower.batch
    split <;> omega
  unfold Conn.handOver
  cases given : c.replies with
  | none =>
    obtain ⟨recorded, -, placed⟩ := follower.none given
    refine ⟨fun _ => ⟨recorded, rfl, placed⟩, nofun, Int.le_refl _, nofun, ?_⟩
    intro p inside
    exact Int.le_trans (follower.queue p inside) longer
  | some l =>
    obtain ⟨follows, batches⟩ := follower.some l given
    cases batches with
    | none batched batch more empty =>
      simp only [batched, if_true]
      refine ⟨nofun, ?_, Int.le_refl _, nofun, ?_⟩
      · intro l' there
        obtain rfl := Option.some.inj there
        exact ⟨follows, .none batched batch more rfl⟩
      · intro p inside
        exact Int.le_trans (follower.queue p inside) longer
    | some batched apart covers inside =>
      simp only [if_neg (show ¬l.batched = 0 by omega)]
      refine ⟨nofun, ?_, Int.le_refl _, nofun, ?_⟩
      · rintro - ⟨⟩
        refine ⟨?_, .none rfl rfl rfl rfl⟩
        cases accepted with
        | false => exact ⟨follows.apart, follows.total, follows.live⟩
        | true =>
          have placed := fun base => placeRuns_follows base reports follows apart
          simp only [covers] at placed
          exact ⟨(placed _).apart, (placed _).total, (placed _).live⟩
      · intro p inside
        cases accepted with
        | false => exact follower.queue p inside
        | true =>
          simp only [if_true, Finset.mem_union, Finset.mem_image] at inside ⊢
          rcases inside with old | ⟨o, new, rfl⟩
          · have := follower.queue p old
            have := follower.batch
            omega
          · have := follower.offsets o new
            omega

theorem exact_handOver (follower : Follower c) (exact : c.recorded = c.placed) (accepted : Bool)
    (reports : List Nat) :
    (c.handOver accepted 0 reports).recorded = (c.handOver accepted 0 reports).placed := by
  unfold Conn.handOver
  cases given : c.replies with
  | none => exact exact
  | some l =>
    simp only
    split
    · exact exact
    cases accepted with
    | false => exact exact
    | true =>
      have all : (c.pending.image (c.queue + ·)).filter (fun p => ∀ q ∈ c.placed, q < p) =
          c.pending.image (c.queue + ·) := by
        apply Finset.filter_true_of_mem
        intro p inside q old
        obtain ⟨o, new, rfl⟩ := Finset.mem_image.1 inside
        have low := follower.queue q old
        have high := follower.offsets o new
        omega
      simp only [if_true, queueEnd_eq, Nat.cast_zero, Int.sub_zero, Int.add_sub_cancel, exact, all]

theorem follower_transportSent (follower : Follower c) (n : Nat) :
    Follower (c.transportSent n) := by
  unfold Conn.transportSent
  cases given : c.replies with
  | none =>
    obtain ⟨recorded, pending, placed⟩ := follower.none given
    refine ⟨fun _ => ⟨recorded, pending, placed⟩, nofun, follower.batch, follower.offsets, ?_⟩
    simp only [placed]
    nofun
  | some l =>
    obtain ⟨follows, batches⟩ := follower.some l given
    refine ⟨nofun, ?_, follower.batch, follower.offsets, follower.queue⟩
    rintro - ⟨⟩
    refine ⟨follows_raise follows (by omega), ?_⟩
    cases batches with
    | none batched batch more empty => exact .none batched batch more empty
    | some batched apart covers inside => exact .some batched apart covers inside

theorem follower_queued (follower : Follower c) :
    Follower { c with replies := c.replies.map fun l => l.queued.2 } := by
  refine ⟨?_, ?_, follower.batch, follower.offsets, follower.queue⟩
  · intro absent
    exact follower.none (Option.map_eq_none_iff.1 absent)
  · intro l' there
    obtain ⟨l, given, rfl⟩ := Option.map_eq_some_iff.1 there
    obtain ⟨follows, batches⟩ := follower.some l given
    obtain ⟨-, kept, same⟩ := queued_follows follows
    exact ⟨kept, batches_same batches same⟩

theorem follower_release (follower : Follower c) : Follower c.releaseReplies := by
  unfold Conn.releaseReplies
  cases given : c.replies with
  | none => exact follower
  | some l =>
    obtain ⟨follows, batches⟩ := follower.some l given
    simp only
    split
    · exact follower
    rename_i batched
    have pending : c.pending = ∅ := by
      cases batches with
      | none _ _ _ empty => exact empty
      | some positive => omega
    split
    · refine ⟨fun _ => ⟨rfl, pending, rfl⟩, nofun, follower.batch, follower.offsets, nofun⟩
    · have looked := follower_queued follower
      rw [given] at looked
      exact looked

theorem follower_reply {low : Int} {n lag : Nat}
    (before : Follower.Before c batched n) : Follower (c.noteReply low n batched lag) := by
  rcases noteReply_cases low lag before with ⟨same, follower⟩ | ⟨l, ready, same⟩
  · rw [same]
    exact follower
  · rw [same]
    exact follower_record ready lag

theorem before_reply (follower : Follower c) (n : Nat) :
    Follower.Before { c with queue := c.queue + n } false n := by
  simpa [Follower.Before] using follower

theorem before_batchReply (follower : Follower c) (n : Nat) :
    Follower.Before { c with batch := c.batch + n } true n := by
  simpa [Follower.Before] using follower

theorem follower_step (follower : Follower c) (e : Event) : Follower (step low c e) := by
  cases e with
  | reply n lag => exact follower_reply (before_reply follower n)
  | other n =>
    refine ⟨follower.none, follower.some, follower.batch, follower.offsets, ?_⟩
    intro p inside
    have low := follower.queue p inside
    simp only [step]
    omega
  | batchReply n => exact follower_reply (before_batchReply follower n)
  | batchOther n =>
    have batch := follower.batch
    refine ⟨follower.none, ?_, ?_, ?_, follower.queue⟩
    · intro l given
      obtain ⟨follows, batches⟩ := follower.some l given
      exact ⟨follows, batches_grow batches (by simp only [step]; omega)⟩
    · simp only [step]
      omega
    · intro o inside
      have within := follower.offsets o inside
      simp only [step]
      omega
  | handOver accepted lag reports => exact follower_handOver follower accepted lag reports
  | sent n => exact follower_transportSent follower n
  | queued => exact follower_queued follower
  | release => exact follower_release follower

theorem exact_step (follower : Follower c) (exact : c.recorded = c.placed) {e : Event}
    (reads : e.exact = true) : (step low c e).recorded = (step low c e).placed := by
  cases e with
  | reply n lag =>
    obtain rfl : lag = 0 := by simpa [Event.exact] using reads
    rcases noteReply_cases low 0 (before_reply follower n) with ⟨same, -⟩ | ⟨l, ready, same⟩
    · simp only [step, same]
      exact exact
    · simp only [step, same]
      exact exact_record ready exact
  | batchReply n =>
    rcases noteReply_cases low 0 (before_batchReply follower n) with ⟨same, -⟩ | ⟨l, ready, same⟩
    · simp only [step, same]
      exact exact
    · simp only [step, same]
      exact exact_record ready exact
  | handOver accepted lag reports =>
    obtain rfl : lag = 0 := by simpa [Event.exact] using reads
    exact exact_handOver follower exact accepted reports
  | sent n =>
    simp only [step, Conn.transportSent]
    split <;> exact exact
  | release =>
    simp only [step, Conn.releaseReplies]
    split
    · exact exact
    split
    · exact exact
    split
    · rfl
    · exact exact
  | _ => exact exact

end Steps

theorem follower_run (events : List Event) : Follower (run low events) := by
  unfold run
  induction events using List.reverseRecOn with
  | nil => exact ⟨fun _ => ⟨rfl, rfl, rfl⟩, nofun, Int.le_refl _, nofun, nofun⟩
  | append_singleton events e ih =>
    rw [List.foldl_append]
    exact follower_step low ih e

theorem exact_run {events : List Event} (reads : ∀ e ∈ events, e.exact = true) :
    (run low events).recorded = (run low events).placed := by
  unfold run
  induction events using List.reverseRecOn with
  | nil => rfl
  | append_singleton events e ih =>
    rw [List.foldl_append]
    exact exact_step low (follower_run low events) (ih fun e' old => reads e' (by simp [old]))
      (reads e (by simp))

/-- After any events the runs stand apart in order, their total is the sum of their sizes,
and `queued` counts the recorded positions above the sent count; growing keeps every run.
When every reading of the queue's end was exact these are the replies still queued. -/
theorem reply_ledger_exact (low : Int) (events : List Event) (l : Ledger)
    (given : (run low events).replies = some l) :
    Apart l.runs.toList ∧ l.total = sizes l.runs.toList ∧
      l.queued.1 = (((run low events).recorded.filter (l.sent < ·)).card : Int) ∧
      l.runs.grow.toList = l.runs.toList ∧ ((∀ e ∈ events, e.exact = true) →
        l.queued.1 = (((run low events).placed.filter (l.sent < ·)).card : Int)) := by
  obtain ⟨follows, -⟩ := (follower_run low events).some l given
  have counted := (queued_follows follows).1
  refine ⟨follows.apart, follows.total, counted, l.runs.toList_grow, ?_⟩
  intro reads
  rw [counted, exact_run low reads]

def mixed : List Event :=
  [.other 4, .reply 3 0, .batchReply 2, .batchOther 5, .batchReply 1, .handOver true 0 [2],
    .sent 3, .other 2, .reply 6 0]

/-- Of the twelve bytes of replies one has left with the five bytes sent. -/
theorem reply_ledger_exact_mixed :
    ∃ l, (run 0 mixed).replies = some l ∧ l.runs.count = 3 ∧ l.queued.1 = 11 ∧
      l.queued.1 = (((run 0 mixed).placed.filter (l.sent < ·)).card : Int) :=
  ⟨((run 0 mixed).replies.getD newReplyLedger), rfl, rfl, rfl,
    (reply_ledger_exact 0 mixed _ rfl).2.2.2.2 (by decide)⟩

end Runs

end UwsReplies
