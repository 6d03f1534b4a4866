import Uio.Interleaving

/-!
Positions on the wire and the receipts of tracked writes. A byte is known by the
write it belongs to. A write hands bytes to the socket, or to a layer that holds
output; a flush hands held bytes further down and drops its hold afterwards.
The socket takes bytes first and the stack counts them after; a sender hands bytes
to the kernel, retires them from the socket's queue and reports them, in that order.
-/
namespace LayerReceipts
open Interleaving

/-- A write, with the connection it entered: 0 is the socket, `i + 1` is layer `i`. -/
structure Owner where
  id : Nat
  layer : Nat
  deriving DecidableEq

structure Receipt where
  owner : Owner
  wire : Nat
  inexact : Bool
  deriving DecidableEq

def Receipt.done (r : Receipt) (sent : Nat) : Bool :=
  if r.inexact then false else r.wire = 0 || decide (r.wire ≤ sent)

/-- Where the bytes under way belong, and what follows once they are passed on. -/
inductive After where
  | back (o : Owner) (tracked : Bool)
  | unhold (layer : Nat) (taken : List Owner)
  deriving DecidableEq

def After.level : After → Nat
  | .back o _ => o.layer
  | .unhold layer _ => layer

def After.owners : After → List Owner
  | .back o _ => [o]
  | .unhold _ taken => taken

structure Wire where
  /-- every byte the socket took, oldest first -/
  stream : List Owner
  sent : Nat
  retired : Nat
  wireSent : Nat
  wireQueued : Nat
  sending : Bool
  hold : Nat → List Owner
  flushing : Nat → Bool
  fresh : Nat
  receipts : List Receipt
  busy : Bool
  isOver : Bool
  /-- the WireQueued that was read after a write -/
  noted : List (Owner × Nat)
  /-- the receipts that were reported -/
  told : List Receipt

def Wire.start : Wire :=
  { stream := [], sent := 0, retired := 0, wireSent := 0, wireQueued := 0, sending := false,
    hold := fun _ => [], flushing := fun _ => false, fresh := 0, receipts := [], busy := false,
    isOver := false, noted := [], told := [] }

/-- What a layer does next with the bytes it was given; it may change their number. -/
inductive Act where
  | emit (bytes : List Owner)
  | hold (layer : Nat) (bytes : List Owner)
  | done

structure Choice where
  act : Act := .done
  /-- how many bytes the socket, a flush or a sender takes -/
  amount : Nat := 0
  /-- how many of them the kernel takes at once -/
  direct : Nat := 0
  /-- the write succeeded with some bytes -/
  took : Bool := true

/-- A pass over the receipts taken from the list: those still to look at, those to keep. -/
structure Sweep where
  sent : Nat
  out : List Receipt
  keep : List Receipt
  deriving DecidableEq

inductive Section where
  | write (layer : Nat) (tracked : Bool)
  | through (next : After)
  | socketWrite (bytes : List Owner) (next : After)
  | count (n : Nat) (next : After)
  | readHeld (o : Owner) (i acc : Nat)
  | readQueued (o : Owner) (acc : Nat)
  | addReceipt (r : Receipt)
  | flush (layer : Nat)
  | unhold (layer : Nat) (taken : List Owner)
  | send
  | retire (n : Nat)
  | report (n : Nat)
  | settle
  | loadSent (out : List Receipt)
  | judge (w : Sweep)
  | bufHeld (w : Sweep) (r : Receipt) (i acc : Nat)
  | bufSocket (w : Sweep) (r : Receipt) (acc : Nat)
  | putBack (keep : List Receipt)
  | finish
  deriving DecidableEq

def entry : Section → Bool
  | .write _ _ | .flush _ | .send | .settle | .finish => true
  | _ => false

/-- One thread sends, one turn settles, and one flush of a layer runs at a time. -/
def ready (a : Section) (s : Wire) : Bool :=
  match a with
  | .flush layer => !s.flushing layer
  | .send => !s.sending
  | .settle => !s.busy
  | _ => true

variable (holds : Nat → Bool)

def exact (o : Owner) : Bool := (List.range o.layer).all (fun i => !holds i)

def execWrite (c : Choice) (s : Wire) : Section → Wire × List Section
  | .write layer tracked =>
    ({ s with fresh := s.fresh + 1 }, [.through (.back ⟨s.fresh, layer⟩ tracked)])
  | .through next =>
    match c.act with
    | .emit bytes => (s, [.socketWrite (bytes.filter (· ∈ next.owners)) next])
    | .hold i bytes =>
      if i < next.level ∧ holds i then
        ({ s with
            hold := Function.update s.hold i (s.hold i ++ bytes.filter (· ∈ next.owners)) },
          [.through next])
      else (s, [.through next])
    | .done =>
      match next with
      | .back o tracked => if tracked && c.took then (s, [.readHeld o 0 0]) else (s, [])
      | .unhold layer taken => (s, [.unhold layer taken])
  | .socketWrite bytes next =>
    let taken := bytes.take c.amount
    let direct := if s.sending = false ∧ s.sent = s.stream.length then min c.direct taken.length else 0
    ({ s with
        stream := s.stream ++ taken
        sent := s.sent + direct
        retired := s.retired + direct
        sending := s.sending || decide (0 < direct) },
      (if 0 < direct then [.report direct] else []) ++ [.count taken.length next])
  | .count n next => ({ s with wireQueued := s.wireQueued + n }, [.through next])
  | _ => (s, [])

def execTrack (s : Wire) : Section → Wire × List Section
  | .readHeld o i acc =>
    if i < o.layer then
      (s, [.readHeld o (i + 1) (if holds i then acc + (s.hold i).length else acc)])
    else (s, [.readQueued o acc])
  | .readQueued o acc =>
    ({ s with noted := s.noted ++ [(o, acc + s.wireQueued)] },
      if acc + s.wireQueued = 0 then []
      else [.addReceipt ⟨o, acc + s.wireQueued, !exact holds o⟩])
  | .addReceipt r => ({ s with receipts := s.receipts ++ [r] }, [])
  | _ => (s, [])

def execSend (c : Choice) (s : Wire) : Section → Wire × List Section
  | .flush layer =>
    ({ s with flushing := Function.update s.flushing layer true },
      [.through (.unhold layer ((s.hold layer).take c.amount))])
  | .unhold layer taken =>
    ({ s with
        hold := Function.update s.hold layer ((s.hold layer).drop taken.length)
        flushing := Function.update s.flushing layer false }, [])
  | .send =>
    let n := min c.amount (s.stream.length - s.sent)
    ({ s with sent := s.sent + n, sending := true }, [.retire n, .report n])
  | .retire n => ({ s with retired := s.retired + n }, [])
  | .report n => ({ s with wireSent := s.wireSent + n, sending := false }, [])
  | _ => (s, [])

def execSettle (s : Wire) : Section → Wire × List Section
  | .settle => ({ s with busy := true, receipts := [] }, [.loadSent s.receipts])
  | .loadSent out => (s, [.judge ⟨s.wireSent, out, []⟩])
  | .judge w =>
    match w.out with
    | [] => (s, [.putBack w.keep])
    | r :: rest =>
      if s.isOver || decide (r.wire = 0) then (s, [.judge { w with out := rest }])
      else if r.done w.sent then
        ({ s with told := s.told ++ [r] }, [.judge { w with out := rest }])
      else (s, [.bufHeld { w with out := rest } r r.owner.layer 0])
  | .bufHeld w r i acc =>
    match i with
    | 0 => (s, [.bufSocket w r acc])
    | i + 1 => (s, [.bufHeld w r i (if holds i then acc + (s.hold i).length else acc)])
  | .bufSocket w r acc =>
    if acc + (s.stream.length - s.retired) = 0 then
      ({ s with told := s.told ++ [r] }, [.judge w])
    else (s, [.judge { w with keep := w.keep ++ [r] }])
  | .putBack keep => ({ s with receipts := keep ++ s.receipts, busy := false }, [])
  | _ => (s, [])

def exec (c : Choice) (a : Section) (s : Wire) : Wire × List Section :=
  match a with
  | .write _ _ | .through _ | .socketWrite _ _ | .count _ _ => execWrite holds c s a
  | .readHeld _ _ _ | .readQueued _ _ | .addReceipt _ => execTrack holds s a
  | .flush _ | .unhold _ _ | .send | .retire _ | .report _ => execSend c s a
  | .settle | .loadSent _ | .judge _ | .bufHeld _ _ _ _ | .bufSocket _ _ _ | .putBack _ =>
    execSettle holds s a
  | .finish => ({ s with isOver := true }, [])

def program : Program Wire Section Choice := ⟨entry, ready, exec holds⟩

inductive Step (s : Wire) : Section → Wire → List Section → Prop where
  | write (layer : Nat) (tracked : Bool) :
    Step s (.write layer tracked) { s with fresh := s.fresh + 1 }
      [.through (.back ⟨s.fresh, layer⟩ tracked)]
  | emit (bytes : List Owner) (next : After) (chosen : ∀ b ∈ bytes, b ∈ next.owners) :
    Step s (.through next) s [.socketWrite bytes next]
  | hold (i : Nat) (bytes : List Owner) (next : After) (chosen : ∀ b ∈ bytes, b ∈ next.owners)
      (below : i < next.level) (holder : holds i = true) :
    Step s (.through next) { s with hold := Function.update s.hold i (s.hold i ++ bytes) }
      [.through next]
  | idle (next : After) : Step s (.through next) s [.through next]
  | track (o : Owner) (tracked : Bool) : Step s (.through (.back o tracked)) s [.readHeld o 0 0]
  | back (o : Owner) (tracked : Bool) : Step s (.through (.back o tracked)) s []
  | passed (layer : Nat) (taken : List Owner) :
    Step s (.through (.unhold layer taken)) s [.unhold layer taken]
  | took (bytes taken : List Owner) (next : After) (part : taken <+: bytes) :
    Step s (.socketWrite bytes next) { s with stream := s.stream ++ taken }
      [.count taken.length next]
  | tookDirect (bytes taken : List Owner) (n : Nat) (next : After) (part : taken <+: bytes) :
    Step s (.socketWrite bytes next)
      { s with
        stream := s.stream ++ taken, sent := s.sent + n, retired := s.retired + n, sending := true }
      [.report n, .count taken.length next]
  | count (n : Nat) (next : After) :
    Step s (.count n next) { s with wireQueued := s.wireQueued + n } [.through next]
  | readHeld (o : Owner) (i acc more : Nat) :
    Step s (.readHeld o i acc) s [.readHeld o (i + 1) (acc + more)]
  | readAll (o : Owner) (i acc : Nat) : Step s (.readHeld o i acc) s [.readQueued o acc]
  | unmarked (o : Owner) (acc : Nat) :
    Step s (.readQueued o acc) { s with noted := s.noted ++ [(o, acc + s.wireQueued)] } []
  | marked (o : Owner) (acc : Nat) :
    Step s (.readQueued o acc) { s with noted := s.noted ++ [(o, acc + s.wireQueued)] }
      [.addReceipt ⟨o, acc + s.wireQueued, !exact holds o⟩]
  | addReceipt (r : Receipt) :
    Step s (.addReceipt r) { s with receipts := s.receipts ++ [r] } []
  | flush (layer : Nat) (taken : List Owner) (part : taken <+: s.hold layer) :
    Step s (.flush layer) { s with flushing := Function.update s.flushing layer true }
      [.through (.unhold layer taken)]
  | unhold (layer : Nat) (taken : List Owner) :
    Step s (.unhold layer taken)
      { s with
        hold := Function.update s.hold layer ((s.hold layer).drop taken.length)
        flushing := Function.update s.flushing layer false } []
  | send (n : Nat) :
    Step s .send { s with sent := s.sent + n, sending := true } [.retire n, .report n]
  | retire (n : Nat) : Step s (.retire n) { s with retired := s.retired + n } []
  | report (n : Nat) :
    Step s (.report n) { s with wireSent := s.wireSent + n, sending := false } []
  | settle : Step s .settle { s with busy := true, receipts := [] } [.loadSent s.receipts]
  | loadSent (out : List Receipt) : Step s (.loadSent out) s [.judge ⟨s.wireSent, out, []⟩]
  | judged (w : Sweep) : Step s (.judge w) s [.putBack w.keep]
  | dropped (w : Sweep) (r : Receipt) (rest : List Receipt) (first : w.out = r :: rest) :
    Step s (.judge w) s [.judge { w with out := rest }]
  | passedBy (w : Sweep) (r : Receipt) (rest : List Receipt) (first : w.out = r :: rest)
      (marked : r.wire ≠ 0) (done : r.done w.sent = true) :
    Step s (.judge w) { s with told := s.told ++ [r] } [.judge { w with out := rest }]
  | look (w : Sweep) (r : Receipt) (rest : List Receipt) (first : w.out = r :: rest) :
    Step s (.judge w) s [.bufHeld { w with out := rest } r r.owner.layer 0]
  | bufHeld (w : Sweep) (r : Receipt) (i acc : Nat) :
    Step s (.bufHeld w r (i + 1) acc) s
      [.bufHeld w r i (if holds i then acc + (s.hold i).length else acc)]
  | bufAll (w : Sweep) (r : Receipt) (acc : Nat) :
    Step s (.bufHeld w r 0 acc) s [.bufSocket w r acc]
  | drained (w : Sweep) (r : Receipt) (empty : s.stream.length ≤ s.retired) :
    Step s (.bufSocket w r 0) { s with told := s.told ++ [r] } [.judge w]
  | kept (w : Sweep) (r : Receipt) (acc : Nat) :
    Step s (.bufSocket w r acc) s [.judge { w with keep := w.keep ++ [r] }]
  | putBack (keep : List Receipt) :
    Step s (.putBack keep) { s with receipts := keep ++ s.receipts, busy := false } []
  | finish : Step s .finish { s with isOver := true } []

theorem exec_step (c : Choice) (a : Section) (s : Wire) :
    Step holds s a (exec holds c a s).1 (exec holds c a s).2 := by
  cases a with
  | through next =>
    simp only [exec, execWrite]
    have chosen : ∀ bytes : List Owner, ∀ b ∈ bytes.filter (· ∈ next.owners), b ∈ next.owners := by
      intro bytes b member
      simpa using (List.mem_filter.mp member).2
    cases c.act with
    | emit bytes => exact .emit _ next (chosen bytes)
    | hold i bytes =>
      dsimp only
      split
      · rename_i fits
        exact .hold i _ next (chosen bytes) fits.1 fits.2
      · exact .idle next
    | done =>
      cases next with
      | back o tracked =>
        dsimp only
        split
        · exact .track o tracked
        · exact .back o tracked
      | unhold layer taken => exact .passed layer taken
  | socketWrite bytes next =>
    simp only [exec, execWrite]
    generalize direct : (if s.sending = false ∧ s.sent = s.stream.length then
      min c.direct (bytes.take c.amount).length else 0) = n
    by_cases some : 0 < n
    · simp only [some, if_true, decide_true, Bool.or_true, List.singleton_append]
      exact .tookDirect bytes _ n next (List.take_prefix _ _)
    · have zero : n = 0 := by omega
      subst zero
      simpa using Step.took bytes _ next (List.take_prefix c.amount bytes)
  | readHeld o i acc =>
    simp only [exec, execTrack]
    split
    · split
      · exact .readHeld o i acc _
      · exact .readHeld o i acc 0
    · exact .readAll o i acc
  | readQueued o acc =>
    simp only [exec, execTrack]
    split
    · exact .unmarked o acc
    · exact .marked o acc
  | judge w =>
    simp only [exec, execSettle]
    split
    · exact .judged w
    · rename_i r rest first
      split
      · exact .dropped w r rest first
      · rename_i present
        split
        · rename_i done
          exact .passedBy w r rest first (by simp_all) done
        · exact .look w r rest first
  | bufHeld w r i acc =>
    cases i with
    | zero => exact .bufAll w r acc
    | succ i => exact .bufHeld w r i acc
  | bufSocket w r acc =>
    simp only [exec, execSettle]
    split
    · rename_i empty
      have zero : acc = 0 := by omega
      subst zero
      exact .drained w r (by omega)
    · exact .kept w r acc
  | write layer tracked => exact .write layer tracked
  | count n next => exact .count n next
  | addReceipt r => exact .addReceipt r
  | flush layer => exact .flush layer _ (List.take_prefix _ _)
  | unhold layer taken => exact .unhold layer taken
  | send => exact .send _
  | retire n => exact .retire n
  | report n => exact .report n
  | settle => exact .settle
  | loadSent out => exact .loadSent out
  | putBack keep => exact .putBack keep
  | finish => exact .finish

end LayerReceipts
