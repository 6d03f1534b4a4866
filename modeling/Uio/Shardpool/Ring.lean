import Uio.Interleaving

/-!
The queue of one shard: a ring of cells, each with a sequence number that says which
position may write it or take from it. Producers and consumers claim a position by moving
the tail or the head; the cell is written, or emptied, and its number stored after that.
Positions are counted without bound and compared as the 64-bit words that hold them.
-/
namespace ShardRing
open Interleaving

variable {T : Type}

def defaultCapacity : Nat := 4096

def capacityOf (asked : Int) : Nat :=
  2 ^ (Nat.size (max (if asked ≤ 0 then defaultCapacity else asked.toNat) 2 - 1))

def same (a b : Nat) : Bool := a % 2 ^ 64 == b % 2 ^ 64

def below (a b : Nat) : Bool := decide (2 ^ 63 ≤ (a + (2 ^ 64 - b % 2 ^ 64)) % 2 ^ 64)

structure TaskRing (T : Type) where
  tail : Nat
  head : Nat
  seq : Nat → Nat
  task : Nat → T
  /-- the tasks, by the position their producer claimed -/
  claims : List T
  /-- the positions, in the order consumers claimed them -/
  popped : List Nat
  /-- what consumers read, with the position they claimed -/
  took : List (Nat × T)

def TaskRing.fresh [Inhabited T] : TaskRing T :=
  { tail := 0, head := 0, seq := fun j => j, task := fun _ => default, claims := [], popped := [],
    took := [] }

inductive Section (T : Type) where
  | push (task : T)
  | pushSeq (pos : Nat) (task : T)
  | pushClaim (pos : Nat) (task : T)
  | pushWrite (pos : Nat) (task : T)
  | pushPublish (pos : Nat)
  | pop
  | popSeq (pos : Nat)
  | popClaim (pos : Nat)
  | popTake (pos : Nat)
  | popClear (pos : Nat)
  | popFree (pos : Nat)
  deriving DecidableEq

def entry : Section T → Bool
  | .push _ | .pop => true
  | _ => false

def exec [Inhabited T] (cap : Nat) (a : Section T) (s : TaskRing T) : TaskRing T × List (Section T) :=
  match a with
  | .push task => (s, [.pushSeq s.tail task])
  | .pushSeq pos task =>
    if same (s.seq (pos % cap)) pos then (s, [.pushClaim pos task])
    -- the task from the previous lap is still there
    else if below (s.seq (pos % cap)) pos then (s, [])
    else (s, [.push task])
  | .pushClaim pos task =>
    if same s.tail pos then
      ({ s with tail := s.tail + 1, claims := s.claims ++ [task] }, [.pushWrite pos task])
    else (s, [.push task])
  | .pushWrite pos task => ({ s with task := Function.update s.task (pos % cap) task }, [.pushPublish pos])
  | .pushPublish pos => ({ s with seq := Function.update s.seq (pos % cap) (pos + 1) }, [])
  | .pop => (s, [.popSeq s.head])
  | .popSeq pos =>
    if same (s.seq (pos % cap)) (pos + 1) then (s, [.popClaim pos])
    -- not written yet
    else if below (s.seq (pos % cap)) (pos + 1) then (s, [])
    else (s, [.pop])
  | .popClaim pos =>
    if same s.head pos then
      ({ s with head := s.head + 1, popped := s.popped ++ [pos] }, [.popTake pos])
    else (s, [.pop])
  | .popTake pos => ({ s with took := s.took ++ [(pos, s.task (pos % cap))] }, [.popClear pos])
  | .popClear pos => ({ s with task := Function.update s.task (pos % cap) default }, [.popFree pos])
  | .popFree pos => ({ s with seq := Function.update s.seq (pos % cap) (pos + cap) }, [])

def program [Inhabited T] (cap : Nat) : Program (TaskRing T) (Section T) Unit :=
  ⟨entry, fun _ _ => true, fun _ => exec cap⟩

def empty [Inhabited T] : Pool (TaskRing T) (Section T) := ⟨.fresh, []⟩

/-- A thread that loaded a position looks at its cell before 3 * 2^61 others are claimed,
    which keeps the two numbers within 2^63, and tries to claim it before 2^64 are. Once it
    has claimed one it may pause for as long as it likes. -/
def prompt (_ : Unit) (a : Section T) (s : TaskRing T) : Bool :=
  match a with
  | .pushSeq pos _ => decide (s.tail < pos + 3 * 2 ^ 61)
  | .pushClaim pos _ => decide (s.tail < pos + 2 ^ 64)
  | .popSeq pos => decide (s.head < pos + 3 * 2 ^ 61)
  | .popClaim pos => decide (s.head < pos + 2 ^ 64)
  | _ => true

def Prompt (c : Unit) (a : Section T) (s : TaskRing T) : Prop := prompt c a s = true

end ShardRing
