import Uio.Umux.Frame

/-!
What a session has still to send, and the flush pass that hands it to the
transport. These are the fields the session lock guards on the outbound side:
the control frames, the round-robin list of stream ids, and of each stream its
queued frames, its place on the list and its FIN. Streams are objects here, named
by a reference, since the code compares them by identity; an id is what the wire
carries. `handed` and `wire` record what the transport accepted.
-/
namespace UmuxOutbox
open UmuxFrame

abbrev Ref := Nat

abbrev Table := AList (fun _ : Nat => Ref)

inductive Cause where
  | closed
  | streamReset
  | goAway
  | shutdownTimeout
  | maxStreams
  | protocol
  | openTimeout
  | keepAlive
  | windowExceeded
  | malformed
  | frame (e : FrameError)
  | deadline (read write : Bool)
  | eof
  | context
  | transport (n : Nat)
  | user (n : Nat)
  deriving DecidableEq, Repr

inductive FinState where
  | none
  | queued
  | sent
  deriving DecidableEq, Repr

structure Tx where
  out : List Frame := []
  queued : Bool := false
  finState : FinState := .none
  deriving DecidableEq, Repr

/-- The answer to one write: accepted whole, of which `now` bytes left the socket
    within the call, refused with ErrOutboundOverflow, or failed for good. -/
inductive Answer where
  | accept (now : Nat)
  | overflow
  | fail (n : Nat)
  deriving DecidableEq, Repr

/-- The transport as a session sees it. `unsent` is what it accepted and has not
    sent, `wakeOwed` a Wake whose turn has not begun. `flushReq` is the session's
    own flag; it lives outside the session lock. `refusedIdle` records a refusal
    made with nothing unsent. -/
structure Conn where
  wire : List Frame := []
  unsent : Nat := 0
  flushReq : Bool := false
  wakeOwed : Bool := false
  failed : Bool := false
  closing : Option Cause := none
  refusedIdle : Bool := false
  deriving DecidableEq

def Conn.wake (c : Conn) : Conn := { c with wakeOwed := true }

/-- `requestFlush` as the transport's write report runs it, inside the write. -/
def Conn.report (c : Conn) : Conn :=
  if c.flushReq then c else { c with flushReq := true, wakeOwed := true }

inductive Verdict where
  | accepted
  | overflow
  | failed (cause : Cause)
  deriving DecidableEq, Repr

/-- What is assumed of uio's connection: once a write failed, or it was told to close,
    it accepts nothing more. -/
@[simp] def Conn.shut (c : Conn) : Bool := c.failed || c.closing.isSome

def Conn.write (c : Conn) (f : Frame) : Answer → Conn × Verdict
  | .fail n => ({ c with failed := true }, .failed (.transport n))
  | .overflow =>
    if c.shut then ({ c with failed := true }, .failed .closed)
    else ({ c with refusedIdle := c.refusedIdle || c.unsent == 0 }, .overflow)
  | .accept now =>
    if c.shut then ({ c with failed := true }, .failed .closed)
    else
      let sent := min now (c.unsent + f.size)
      let c' := { c with wire := c.wire ++ [f], unsent := c.unsent + f.size - sent }
      (if sent = 0 then c' else c'.report, .accepted)

structure Queues where
  control : List Frame := []
  pending : List Nat := []
  tx : Ref → Tx := fun _ => {}
  handed : Ref → List Frame := fun _ => []
  finFlushed : List Ref := []
  drained : List Ref := []
  goAwaySent : Bool := false
  goAwayFlushed : Bool := false

def Queues.setTx (b : Queues) (r : Ref) (x : Tx) : Queues :=
  { b with tx := Function.update b.tx r x }

def sendControlLocked (closed : Bool) (f : Frame) (b : Queues) : Queues :=
  if closed then b else { b with control := b.control ++ [f] }

/-- Put the stream on the round-robin list unless it is there already. -/
def queueStream (id : Nat) (r : Ref) (b : Queues) : Queues :=
  if (b.tx r).queued then b
  else { b.setTx r { b.tx r with queued := true } with pending := b.pending ++ [id] }

def enqueue (id : Nat) (r : Ref) (f : Frame) (b : Queues) : Queues :=
  queueStream id r (b.setTx r { b.tx r with out := (b.tx r).out ++ [f] })

def queueFin (id : Nat) (r : Ref) (b : Queues) : Queues :=
  queueStream id r (b.setTx r { b.tx r with finState := .queued })

def dropOutLocked (r : Ref) (b : Queues) : Queues := b.setTx r {}

def maxFlushFrames : Nat := 256

def markGoAway (b : Queues) : Queues :=
  if b.goAwaySent && b.control.isEmpty then { b with goAwayFlushed := true } else b

/-- The next answer of the transport; one that gives none takes the frame. -/
def answerOf : List Answer → Answer
  | [] => .accept 0
  | a :: _ => a

def Queues.popControl (b : Queues) : Queues := { b with control := b.control.tail }

def Queues.popPending (b : Queues) : Queues := { b with pending := b.pending.tail }

def Queues.hand (b : Queues) (r : Ref) (f : Frame) : Queues :=
  { b with handed := Function.update b.handed r (b.handed r ++ [f]) }

/-- What `flushLocked` finds to do next: a control frame, or what the front of the
    round-robin list names. -/
inductive Head where
  | control (f : Frame)
  | empty
  | gone
  | stale (r : Ref)
  | fin (id : Nat) (r : Ref)
  | data (id : Nat) (r : Ref) (f : Frame)
  deriving DecidableEq, Repr

def headOf (streams : Table) (b : Queues) : Head :=
  match b.control with
  | f :: _ => .control f
  | [] =>
    match b.pending with
    | [] => .empty
    | id :: _ =>
      match streams.lookup id with
      | none => .gone
      | some r =>
        match (b.tx r).out with
        | f :: _ => .data id r f
        | [] => if (b.tx r).finState = .queued then .fin id r else .stale r

def unqueue (r : Ref) (b : Queues) : Queues :=
  b.popPending.setTx r { b.tx r with queued := false }

def popOut (r : Ref) (b : Queues) : Queues :=
  b.setTx r { b.tx r with out := (b.tx r).out.tail }

/-- A data frame went out: the stream leaves the list when it has nothing left, and
    goes to the back otherwise. -/
def afterData (drainObs : Bool) (id : Nat) (r : Ref) (b : Queues) : Queues :=
  let b := popOut r b
  if (b.tx r).out = [] ∧ (b.tx r).finState ≠ .queued then
    if drainObs then { unqueue r b with drained := b.drained ++ [r] } else unqueue r b
  else { b with pending := b.pending.tail ++ [id] }

def afterFin (r : Ref) (b : Queues) : Queues :=
  { b.popPending.setTx r { b.tx r with queued := false, finState := .sent } with
    finFlushed := b.finFlushed ++ [r] }

structure Outbox extends Queues where
  conn : Conn := {}

/-- The loop of `flushLocked`: one control frame or list entry a round. -/
def flushLoop (drainObs : Bool) (streams : Table) :
    Nat → List Answer → Queues → Conn → Outbox × Option Cause
  | 0, _, b, c => (⟨b, c⟩, none)
  | budget + 1, answers, b₀, c =>
    let b := markGoAway b₀
    match headOf streams b with
    | .empty => (⟨b, c⟩, none)
    | .gone => flushLoop drainObs streams budget answers b.popPending c
    | .stale r => flushLoop drainObs streams budget answers (unqueue r b) c
    | .control f =>
      match c.write f (answerOf answers) with
      | (c', .overflow) => (⟨b, c'⟩, none)
      | (c', .failed e) => (⟨b, c'⟩, some e)
      | (c', .accepted) => flushLoop drainObs streams budget answers.tail b.popControl c'
    | .fin id r =>
      match c.write (finFrame id) (answerOf answers) with
      | (c', .overflow) => (⟨b, c'⟩, none)
      | (c', .failed e) => (⟨b, c'⟩, some e)
      | (c', .accepted) =>
        flushLoop drainObs streams budget answers.tail (afterFin r (b.hand r (finFrame id))) c'
    | .data id r f =>
      match c.write f (answerOf answers) with
      | (c', .overflow) => (⟨b, c'⟩, none)
      | (c', .failed e) => (⟨popOut r b, c'⟩, some e)
      | (c', .accepted) =>
        flushLoop drainObs streams budget answers.tail (afterData drainObs id r (b.hand r f)) c'

def flushLocked (closed drainObs : Bool) (streams : Table) (answers : List Answer) (b : Outbox) :
    Outbox × Option Cause :=
  if closed then (b, none)
  else flushLoop drainObs streams maxFlushFrames answers b.toQueues b.conn

@[simp] theorem setTx_same (b : Queues) (r : Ref) (x : Tx) : (b.setTx r x).tx r = x := by
  simp [Queues.setTx]

theorem setTx_other (b : Queues) {r q : Ref} (x : Tx) (other : q ≠ r) :
    (b.setTx r x).tx q = b.tx q := by
  simp [Queues.setTx, other]

theorem write_accepted {c c' : Conn} {f : Frame} {a : Answer} (done : c.write f a = (c', .accepted)) :
    c.failed = false ∧ c.closing = none ∧ c'.wire = c.wire ++ [f] := by
  cases a with
  | fail n => simp [Conn.write] at done
  | overflow =>
    simp only [Conn.write] at done
    split at done <;> simp at done
  | accept now =>
    simp only [Conn.write] at done
    split at done
    · simp at done
    · rename_i usable
      simp only [Conn.shut, Bool.or_eq_true, not_or, Bool.not_eq_true, Option.isSome_eq_false_iff,
        Option.isNone_iff_eq_none] at usable
      simp only [Prod.mk.injEq, and_true] at done
      refine ⟨usable.1, usable.2, ?_⟩
      subst c'
      split
      · rfl
      · unfold Conn.report
        split <;> rfl

theorem write_overflow {c c' : Conn} {f : Frame} {a : Answer} (done : c.write f a = (c', .overflow)) :
    c' = { c with refusedIdle := c.refusedIdle || c.unsent == 0 } := by
  cases a with
  | fail n => simp [Conn.write] at done
  | overflow =>
    simp only [Conn.write] at done
    split at done
    · simp at done
    · simp only [Prod.mk.injEq, and_true] at done
      exact done.symm
  | accept now =>
    simp only [Conn.write] at done
    split at done <;> simp at done

theorem write_failed {c c' : Conn} {f : Frame} {a : Answer} {e : Cause}
    (done : c.write f a = (c', .failed e)) : c' = { c with failed := true } := by
  cases a with
  | fail n =>
    simp only [Conn.write, Prod.mk.injEq] at done
    exact done.1.symm
  | overflow | accept now =>
    simp only [Conn.write] at done
    split at done
    · simp only [Prod.mk.injEq] at done
      exact done.1.symm
    · simp at done

def Head.Found (streams : Table) (b : Queues) : Head → Prop
  | .control f => ∃ rest, b.control = f :: rest
  | .empty => b.control = [] ∧ b.pending = []
  | .gone => b.control = [] ∧ ∃ id rest, b.pending = id :: rest ∧ streams.lookup id = none
  | .stale r => b.control = [] ∧ ∃ id rest, b.pending = id :: rest ∧ streams.lookup id = some r ∧
      (b.tx r).out = [] ∧ (b.tx r).finState ≠ .queued
  | .fin id r => b.control = [] ∧ ∃ rest, b.pending = id :: rest ∧ streams.lookup id = some r ∧
      (b.tx r).out = [] ∧ (b.tx r).finState = .queued
  | .data id r f => b.control = [] ∧ ∃ rest more, b.pending = id :: rest ∧
      streams.lookup id = some r ∧ (b.tx r).out = f :: more

theorem headOf_found (streams : Table) (b : Queues) : (headOf streams b).Found streams b := by
  cases control : b.control with
  | cons f rest =>
    have head : headOf streams b = .control f := by simp only [headOf, control]
    rw [head]
    exact ⟨rest, control⟩
  | nil =>
    cases pending : b.pending with
    | nil =>
      have head : headOf streams b = .empty := by simp only [headOf, control, pending]
      rw [head]
      exact ⟨control, pending⟩
    | cons id rest =>
      cases found : streams.lookup id with
      | none =>
        have head : headOf streams b = .gone := by simp only [headOf, control, pending, found]
        rw [head]
        exact ⟨control, id, rest, pending, found⟩
      | some r =>
        cases out : (b.tx r).out with
        | cons f more =>
          have head : headOf streams b = .data id r f := by
            simp only [headOf, control, pending, found, out]
          rw [head]
          exact ⟨control, rest, more, pending, found, out⟩
        | nil =>
          by_cases fin : (b.tx r).finState = .queued
          · have head : headOf streams b = .fin id r := by
              simp only [headOf, control, pending, found, out, fin, if_true]
            rw [head]
            exact ⟨control, rest, pending, found, out, fin⟩
          · have head : headOf streams b = .stale r := by
              simp only [headOf, control, pending, found, out, fin, if_false]
            rw [head]
            exact ⟨control, id, rest, pending, found, out, fin⟩

end UmuxOutbox
