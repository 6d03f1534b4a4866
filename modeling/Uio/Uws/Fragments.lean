import Uio.Uws.Limits

/-!
Sending one message in frames of at most `maxFrame` bytes. The transport queues what it is
handed, refuses what would pass the outbound limit, and drains beside the sender, as far as
each frame's choice says; `full` is a batch block without room for the frame.
-/
namespace UwsFragments
open UwsFrame UwsLimits

structure Conn where
  client : Bool
  maxFramePayload : Nat
  maxOutbound : Int
  writeBufferedThreshold : Int

structure Link where
  queued : Nat
  batch : List Content
  handed : List Content
  aborted : Bool

structure Choice where
  batching : Bool
  full : Bool
  checked : Nat
  flushed : Nat
  written : Nat
  closed : Bool
  fails : Bool

inductive Result where
  | ok
  | backpressure
  | batchRefused
  | closed
  | failed
deriving DecidableEq

def Conn.maxFrame (c : Conn) : Nat := if c.maxFramePayload = 0 then 16 <<< 20 else c.maxFramePayload

theorem Conn.maxFrame_pos (c : Conn) : 0 < c.maxFrame := by
  unfold maxFrame
  split <;> omega

variable (c : Conn) (x : Choice) (l : Link) (opcode : OpCode) (compressed : Bool)
  (payload : List UInt8)

def Conn.size (f : Content) : Nat := frameWireSize f.payload.length c.client

def Conn.bytes (fs : List Content) : Nat := (fs.map c.size).sum

abbrev Conn.admits (n : Nat) : Prop := c.maxOutbound ≤ 0 ∨ (n : Int) ≤ c.maxOutbound

def Link.out : List Content := l.handed ++ l.batch

def flushBatch (drained : Nat) : Link × Bool :=
  let queued := l.queued - drained
  if l.batch = [] then (l, true)
  else if c.admits (queued + c.bytes l.batch) then
    (⟨queued + c.bytes l.batch, [], l.out, l.aborted⟩, true)
  else (⟨queued, [], l.handed, true⟩, false)

def queueFrame (f : Content) : Link × Result :=
  let looked := { l with queued := l.queued - x.checked }
  let flushed := flushBatch c looked x.flushed
  if x.closed then (l, .closed)
  else if 0 < c.writeBufferedThreshold ∧ c.size f < c.writeBufferedThreshold ∧ x.batching ∧
      c.admits (looked.queued + c.bytes l.batch + c.size f) then
    if x.full = false then ({ looked with batch := l.batch ++ [f] }, .ok)
    else if flushed.2 then ({ flushed.1 with batch := flushed.1.batch ++ [f] }, .ok)
    else (flushed.1, .batchRefused)
  else if flushed.2 = false then (flushed.1, .batchRefused)
  else
    let queued := flushed.1.queued - x.written
    if x.fails then ({ flushed.1 with queued }, .failed)
    else if c.admits (queued + c.size f) then
      ({ flushed.1 with queued := queued + c.size f, handed := flushed.1.handed ++ [f] }, .ok)
    else ({ flushed.1 with queued }, .backpressure)

def fragments (opcode : OpCode) (compressed : Bool) (payload : List UInt8) : List Content :=
  if payload.length ≤ c.maxFrame then [⟨true, compressed, opcode, c.client, payload⟩]
  else ⟨false, compressed, opcode, c.client, payload.take c.maxFrame⟩ ::
    fragments .continuation false (payload.drop c.maxFrame)
termination_by payload.length
decreasing_by
  have := c.maxFrame_pos
  rw [List.length_drop]
  omega

def sendFrames (x : Nat → Choice) (begun : Bool) : List Content → Link → Link × Result
  | [], l => (l, .ok)
  | f :: fs, l =>
    match queueFrame c (x 0) l f with
    | (l, .ok) => sendFrames (fun i => x (i + 1)) true fs l
    | (l, r) => ({ l with aborted := l.aborted || begun && r ≠ .closed }, r)

def sendMessageLocked (x : Nat → Choice) : Link × Result :=
  if payload.length ≤ c.maxFrame then
    queueFrame c (x 0) l ⟨true, compressed, opcode, c.client, payload⟩
  else if c.admits (l.queued + c.bytes l.batch +
      fragmentedWireSize payload.length c.maxFrame c.client) then
    sendFrames c x false (fragments c opcode compressed payload) l
  else (l, .backpressure)

theorem fragmentedWireSize_add {n frame : Nat} (some : 0 < n) (wide : 0 < frame) (masked : Bool) :
    fragmentedWireSize (n + frame) frame masked =
      frameWireSize frame masked + fragmentedWireSize n frame masked := by
  unfold fragmentedWireSize
  rw [if_neg (by omega), Nat.add_div_right _ wide, Nat.add_mod_right]
  by_cases fits : n ≤ frame
  · rw [if_pos fits]
    rcases Nat.lt_or_eq_of_le fits with less | rfl
    · simp [Nat.div_eq_of_lt less, Nat.mod_eq_of_lt less, some]
    · simp [Nat.div_self some]
      omega
  · rw [if_neg fits, Nat.succ_mul]
    omega

theorem fragments_payload : (fragments c opcode compressed payload).flatMap (·.payload) = payload := by
  fun_induction fragments c opcode compressed payload with
  | case1 => simp
  | case2 opcode compressed payload long ih => simp [ih]

theorem fragments_bytes : c.bytes (fragments c opcode compressed payload) =
    fragmentedWireSize payload.length c.maxFrame c.client := by
  fun_induction fragments c opcode compressed payload with
  | case1 opcode compressed payload fits => simp [Conn.bytes, Conn.size, fragmentedWireSize, fits]
  | case2 opcode compressed payload long ih =>
    have split : payload.length = (payload.drop c.maxFrame).length + c.maxFrame := by
      rw [List.length_drop]
      omega
    rw [split, fragmentedWireSize_add (by rw [List.length_drop]; omega) c.maxFrame_pos, ← ih]
    simp [Conn.bytes, Conn.size, Nat.min_eq_left (Nat.le_of_not_le long)]

variable {l}

theorem flushBatch_spec (l : Link) (drained : Nat) :
    (∃ queued ≤ l.queued + c.bytes l.batch,
      flushBatch c l drained = (⟨queued, [], l.out, l.aborted⟩, true)) ∨
    (flushBatch c l drained).2 = false ∧ (flushBatch c l drained).1.out <+: l.out ∧
      ¬c.admits (l.queued + c.bytes l.batch) := by
  simp only [flushBatch]
  split_ifs with empty
  · exact .inl ⟨l.queued, by omega, by cases l; simp_all [Link.out]⟩
  · exact .inl ⟨_, by omega, rfl⟩
  · exact .inr ⟨rfl, by simp [Link.out], by omega⟩

theorem queueFrame_spec (x : Choice) (l : Link) (f : Content) :
    ∃ next r, queueFrame c x l f = (next, r) ∧
      (r = .ok ∧ next.out = l.out ++ [f] ∧ next.aborted = l.aborted ∧
        next.queued + c.bytes next.batch ≤ l.queued + c.bytes l.batch + c.size f ∨
      r ≠ .ok ∧ next.out <+: l.out ∧ (x.closed = false → x.fails = false →
        ¬c.admits (l.queued + c.bytes l.batch + c.size f))) := by
  refine ⟨(queueFrame c x l f).1, (queueFrame c x l f).2, rfl, ?_⟩
  have flush := flushBatch_spec c { l with queued := l.queued - x.checked } x.flushed
  have one : ∀ fs, c.bytes (fs ++ [f]) = c.bytes fs + c.size f := by simp [Conn.bytes]
  have none : c.bytes [] = 0 := rfl
  simp only [queueFrame]
  generalize flushBatch c _ x.flushed = flushed at flush ⊢
  dsimp only at flush
  rcases flush with ⟨queued, le, rfl⟩ | ⟨refused, kept, full⟩
  · split_ifs
    · exact .inr ⟨nofun, List.prefix_refl _, by simp_all⟩
    · exact .inl ⟨rfl, by simp [Link.out], rfl, by simp only [one]; omega⟩
    · exact .inl ⟨rfl, by simp [Link.out], rfl, by simp only [one, none]; omega⟩
    · simp_all
    · simp_all
    · exact .inr ⟨nofun, by simp [Link.out], by simp_all⟩
    · exact .inl ⟨rfl, by simp [Link.out], rfl, by simp only [none]; omega⟩
    · exact .inr ⟨nofun, by simp [Link.out], by dsimp only at *; omega⟩
  · split_ifs
    · exact .inr ⟨nofun, List.prefix_refl _, by simp_all⟩
    · exact .inl ⟨rfl, by simp [Link.out], rfl, by simp only [one]; omega⟩
    all_goals first | exact .inr ⟨nofun, kept, by omega⟩ | simp_all

theorem sendFrames_whole {x : Nat → Choice} (fine : ∀ i, (x i).closed = false ∧ (x i).fails = false)
    (begun : Bool) (fs : List Content)
    (fits : c.admits (l.queued + c.bytes l.batch + c.bytes fs)) :
    ∃ next, sendFrames c x begun fs l = (next, .ok) ∧ next.out = l.out ++ fs ∧
      next.aborted = l.aborted := by
  induction fs generalizing x begun l with
  | nil => exact ⟨l, rfl, (List.append_nil _).symm, rfl⟩
  | cons f fs ih =>
    have sum : c.bytes (f :: fs) = c.size f + c.bytes fs := by simp [Conn.bytes]
    rw [sum] at fits
    simp only [sendFrames]
    obtain ⟨next, r, queued, ⟨rfl, out, same, load⟩ | ⟨-, -, full⟩⟩ := queueFrame_spec c (x 0) l f
    · obtain ⟨last, ok, sent, kept⟩ := @ih next _ (fun i => fine (i + 1)) true (by omega)
      rw [queued]
      exact ⟨last, ok, by rw [sent, out, List.append_assoc]; rfl, kept.trans same⟩
    · exact absurd (by omega) (full (fine 0).1 (fine 0).2)

/-- A message's frames carry it and are as long as the size it is admitted by; unless the
    connection closes or the transport fails it is sent whole, or nothing of it is. -/
theorem fragments_all_or_nothing (x : Nat → Choice) :
    c.bytes (fragments c opcode compressed payload) =
        fragmentedWireSize payload.length c.maxFrame c.client ∧
      (fragments c opcode compressed payload).flatMap (·.payload) = payload ∧
      ((∀ i, (x i).closed = false ∧ (x i).fails = false) →
        ∃ next r, sendMessageLocked c l opcode compressed payload x = (next, r) ∧
          (r = .ok ∧ next.out = l.out ++ fragments c opcode compressed payload ∧
            next.aborted = l.aborted ∨
          r ≠ .ok ∧ next.out <+: l.out ∧
            (c.maxFrame < payload.length → next = l ∧ r = .backpressure))) := by
  refine ⟨fragments_bytes c opcode compressed payload, fragments_payload c opcode compressed payload,
    fun fine => ?_⟩
  unfold sendMessageLocked
  split_ifs with single fits
  · obtain ⟨next, r, queued, sent | refused⟩ := queueFrame_spec c (x 0) l _
    · rw [fragments, if_pos single]
      exact ⟨next, r, queued, .inl ⟨sent.1, sent.2.1, sent.2.2.1⟩⟩
    · exact ⟨next, r, queued, .inr ⟨refused.1, refused.2.1, fun long => by omega⟩⟩
  · rw [← fragments_bytes c opcode compressed] at fits
    obtain ⟨next, sent, whole⟩ := sendFrames_whole c fine false _ fits
    exact ⟨next, .ok, sent, .inl ⟨rfl, whole⟩⟩
  · exact ⟨l, .backpressure, rfl, .inr ⟨nofun, List.prefix_refl _, fun _ => ⟨rfl, rfl⟩⟩⟩

def undrained (_ : Nat) : Choice := ⟨false, false, 0, 0, 0, false, false⟩

/-- Three bytes in two frames, of seven in all. -/
def sendThree (limit : Int) : Link × Result :=
  sendMessageLocked ⟨false, 2, limit, 0⟩ ⟨0, [], [], false⟩ .binary false [1, 2, 3] undrained

theorem fragments_all_or_nothing_three :
    ((sendThree 8).2 = .ok ∧
      (sendThree 8).1.out = fragments ⟨false, 2, 8, 0⟩ .binary false [1, 2, 3]) ∧
    (sendThree 6).2 = .backpressure ∧ (sendThree 6).1 = ⟨0, [], [], false⟩ := by
  have spec (limit : Int) := (fragments_all_or_nothing ⟨false, 2, limit, 0⟩ .binary false [1, 2, 3]
    undrained (l := ⟨0, [], [], false⟩)).2.2 fun _ => ⟨rfl, rfl⟩
  have taken : (sendThree 8).2 = .ok := by decide +kernel
  have refused : (sendThree 6).2 ≠ .ok := by decide +kernel
  constructor
  · obtain ⟨next, r, sent, whole | none⟩ := spec 8
    · exact ⟨taken, (congrArg (·.1.out) sent).trans whole.2.1⟩
    · exact absurd ((congrArg Prod.snd sent).symm.trans taken) none.1
  · obtain ⟨next, r, sent, whole | none⟩ := spec 6
    · exact absurd ((congrArg Prod.snd sent).trans whole.1) refused
    · obtain ⟨same, pressed⟩ := none.2.2 (by decide)
      exact ⟨(congrArg Prod.snd sent).trans pressed, (congrArg Prod.fst sent).trans same⟩

end UwsFragments
