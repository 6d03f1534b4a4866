import Uio.Bitmap
import Uio.IndexedHeap
import Uio.Timewheel.Clock

/-!
The hashed timing wheel of one event loop. A deadline of the window ahead of the cursor
lies in the ring slot of its tick, one that the cursor has passed in the slot ahead of
it, and one past the window on a heap. Every call runs under the wheel's lock, so a
history is a sequence of calls.
-/
namespace Timewheel
open IndexedHeap WheelClock
open Clock (wall zero add)

def unixEpoch : Int := 62135596800 * 10 ^ 9

def lastNano : Int := unixEpoch + (2 ^ 63 - 1)

structure Config where
  tick : Int
  buckets : Nat
  tick_positive : 0 < tick
  buckets_positive : 0 < buckets

inductive Bucket where
  | notInWheel
  | inOverflow
  | slot (s : Nat)
deriving DecidableEq

/-- The wheel and the entries it may hold. A slot's list is linked through its entries;
an entry's place on the heap is in the heap. `aimed` is what the arm callback heard last. -/
structure Wheel (τ ι : Type) where
  ring : Nat → List ι
  summary : Bitmap.Words
  cursor : Nat
  overflow : Heap ι
  count : Int
  earliest : τ
  aimed : τ
  when : ι → τ
  period : ι → Int64
  bucket : ι → Bucket

variable {τ ι : Type} [Clock τ] [DecidableEq ι] (cfg : Config)

/-- A time before 1970 is in tick zero, one that `UnixNano` cannot carry in the last. -/
def tickOf (t : τ) : Nat :=
  if wall t < unixEpoch then 0
  else if lastNano < wall t then ((2 ^ 63 - 1) / cfg.tick).toNat
  else ((wall t - unixEpoch) / cfg.tick).toNat

def words : Nat := (cfg.buckets - 1) / 64 + 1

def new [Inhabited ι] (now : τ) : Wheel τ ι where
  ring _ := []
  summary _ := 0
  cursor := tickOf cfg now
  overflow := ⟨fun _ => default, 0, fun _ => 0⟩
  count := 0
  earliest := zero
  aimed := zero
  when _ := zero
  period _ := 0
  bucket _ := .notInWheel

def nextSlot (w : Wheel τ ι) : Nat := (w.cursor % cfg.buckets + 1) % cfg.buckets

def linkSlot (w : Wheel τ ι) (e : ι) (s : Nat) : Wheel τ ι :=
  { w with
    bucket := Function.update w.bucket e (.slot s)
    summary := if w.ring s = [] then Bitmap.set w.summary s else w.summary
    ring := Function.update w.ring s (e :: w.ring s) }

def sooner (w : Wheel τ ι) (a b : ι) : Bool := before (w.when a) (w.when b)

def link (w : Wheel τ ι) (e : ι) : Wheel τ ι :=
  if w.cursor + cfg.buckets < tickOf cfg (w.when e) then
    { w with
      bucket := Function.update w.bucket e .inOverflow
      overflow := push (sooner w) w.overflow e }
  else if tickOf cfg (w.when e) ≤ w.cursor then linkSlot w e (nextSlot cfg w)
  else linkSlot w e (tickOf cfg (w.when e) % cfg.buckets)

def attach (w : Wheel τ ι) (e : ι) : Wheel τ ι :=
  let linked := link cfg w e
  { linked with count := linked.count + 1 }

def unlink (w : Wheel τ ι) (e : ι) (s : Nat) : Wheel τ ι :=
  let rest := (w.ring s).erase e
  { w with
    ring := Function.update w.ring s rest
    summary := if rest = [] then Bitmap.clear w.summary s else w.summary }

def setBucket (w : Wheel τ ι) (e : ι) (b : Bucket) : Wheel τ ι :=
  { w with bucket := Function.update w.bucket e b }

def detach (w : Wheel τ ι) (e : ι) : Wheel τ ι :=
  match w.bucket e with
  | .notInWheel => w
  | .inOverflow =>
    match remove (sooner w) w.overflow e with
    | none => setBucket w e .notInWheel
    | some h => { setBucket w e .notInWheel with overflow := h, count := w.count - 1 }
  | .slot s => { setBucket (unlink w e s) e .notInWheel with count := w.count - 1 }

def firstOccupied (w : Wheel τ ι) : Option Nat := Bitmap.first w.summary (words cfg) (nextSlot cfg w)

def earlier (best t : τ) : τ := if IsZero best ∨ before t best then t else best

def earliestHeld (w : Wheel τ ι) : τ :=
  let top := if 0 < w.overflow.size then w.when (w.overflow.item 0) else zero
  match firstOccupied cfg w with
  | none => top
  | some s => (w.ring s).foldl (fun best e => earlier best (w.when e)) top

def rearmEarliest (w : Wheel τ ι) : Wheel τ ι :=
  let found := if w.count = 0 then zero else earliestHeld cfg w
  { w with earliest := found, aimed := found }

def cancel (w : Wheel τ ι) (e : ι) : Wheel τ ι :=
  let detached := detach w e
  if equal (w.when e) w.earliest ∧ w.bucket e ≠ .notInWheel then rearmEarliest cfg detached
  else detached

def arm (w : Wheel τ ι) (e : ι) (t : τ) (period : Int64) : Wheel τ ι :=
  if IsZero t then cancel cfg w e
  else
    let detached := detach w e
    let attached := attach cfg
      { detached with
        when := Function.update detached.when e t
        period := Function.update detached.period e period } e
    if IsZero w.earliest ∨ before t w.earliest ∨ equal (w.when e) w.earliest then
      rearmEarliest cfg attached
    else attached

def reportEntry (now : τ) (r : Wheel τ ι × List ι) (e : ι) : Wheel τ ι × List ι :=
  let w := setBucket r.1 e .notInWheel
  if passed now (w.when e) then ({ w with count := w.count - 1 }, r.2 ++ [e])
  else (link cfg w e, r.2)

def reportSlot (now : τ) (r : Wheel τ ι × List ι) (s : Nat) : Wheel τ ι × List ι :=
  if r.1.ring s = [] then r
  else
    (r.1.ring s).foldl (reportEntry cfg now)
      ({ r.1 with
          ring := Function.update r.1.ring s []
          summary := Bitmap.clear r.1.summary s }, r.2)

/-- The slots of a word are those it names when the sweep comes to it. -/
def sweepWord (now : τ) (r : Wheel τ ι × List ι) (word : Nat) : Wheel τ ι × List ι :=
  (Bitmap.setBits (r.1.summary word)).foldl
    (fun r bit => reportSlot cfg now r (word * 64 + bit)) r

def sweep (now : τ) (r : Wheel τ ι × List ι) : Wheel τ ι × List ι :=
  (List.range (words cfg)).foldl (sweepWord cfg now) r

def roll (now : τ) : Nat → Wheel τ ι × List ι → Wheel τ ι × List ι
  | 0, r => r
  | ticks + 1, r =>
    roll now ticks
      (reportSlot cfg now ({ r.1 with cursor := r.1.cursor + 1 }, r.2)
        ((r.1.cursor + 1) % cfg.buckets))

def turn (now : τ) (r : Wheel τ ι × List ι) : Wheel τ ι × List ι :=
  let current := tickOf cfg now
  if r.1.cursor + cfg.buckets < current then
    let swept := sweep cfg now ({ r.1 with cursor := current - cfg.buckets }, r.2)
    ({ swept.1 with cursor := current }, swept.2)
  else roll cfg now (current - r.1.cursor) r

def reportParked (now : τ) (r : Wheel τ ι × List ι) : Wheel τ ι × List ι :=
  if 0 < r.1.count ∧ ¬ IsZero r.1.earliest ∧ passed now r.1.earliest then
    reportSlot cfg now r (nextSlot cfg r.1)
  else r

def promote (now : τ) : Nat → Wheel τ ι × List ι → Wheel τ ι × List ι
  | 0, r => r
  | fuel + 1, r =>
    let w := r.1
    if w.overflow.size = 0 then r
    else
      let e := w.overflow.item 0
      if before now (w.when e) ∧ w.cursor + cfg.buckets < tickOf cfg (w.when e) then r
      else
        let popped := setBucket { w with overflow := pop (sooner w) w.overflow } e .notInWheel
        if passed now (w.when e) then
          promote now fuel ({ popped with count := popped.count - 1 }, r.2 ++ [e])
        else promote now fuel (link cfg popped e, r.2)

def repeatEntry (now : τ) (w : Wheel τ ι) (e : ι) : Wheel τ ι :=
  if 0 < (w.period e).toInt then
    let next := add (w.when e) (w.period e).toInt
    let next := if passed now next then add now (w.period e).toInt else next
    attach cfg { w with when := Function.update w.when e next } e
  else w

def collect (w : Wheel τ ι) (now : τ) (due : List ι) : Wheel τ ι × List ι :=
  let turned := reportParked cfg now (turn cfg now (w, due))
  promote cfg now turned.1.overflow.size turned

def advanceInto (w : Wheel τ ι) (now : τ) (due : List ι) : Wheel τ ι × List ι :=
  let collected := collect cfg w now due
  let repeated := (collected.2.drop due.length).foldl (repeatEntry cfg now) collected.1
  (rearmEarliest cfg repeated, collected.2)

inductive Call (τ ι : Type) where
  | arm (e : ι) (t : τ) (period : Int64)
  | cancel (e : ι)
  | advanceInto (now : τ)

def call (w : Wheel τ ι) : Call τ ι → Wheel τ ι
  | .arm e t period => arm cfg w e t period
  | .cancel e => cancel cfg w e
  | .advanceInto now => (advanceInto cfg w now []).1

def run (w : Wheel τ ι) (calls : List (Call τ ι)) : Wheel τ ι := calls.foldl (call cfg) w

end Timewheel
