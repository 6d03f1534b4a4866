import Mathlib.Algebra.Group.Int.Defs
import Mathlib.Tactic.SplitIfs

/-!
Times as the wheel compares them. A time has a wall reading and, when it is the running
clock's, a monotonic one. Two times that both have the second are compared by it and any
others by the wall, while a tick is always the wall's. The wheel is written for any type
of times: those of the program, and those of a clock that nobody sets, whose readings
keep their distance.
-/
namespace WheelClock

def lastSecond : Int := 2 ^ 63 - 1

/-- Adding a positive duration to a wall reading: the seconds stop at the last one. -/
def addWall (t d : Int) : Int :=
  if lastSecond < (t + d) / 10 ^ 9 then lastSecond * 10 ^ 9 + (t + d) % 10 ^ 9 else t + d

/-- The first second, that of 1885, a time with a monotonic reading can hold. -/
def wallToInternal : Int := 59453308800

/-- Nanoseconds since the zero time, and on the monotonic clock. -/
structure Time where
  wall : Int
  mono : Option Int
deriving DecidableEq

/-- `Add` of a positive duration. The wall seconds beside a monotonic reading have 33 bits
and the reading has 64; a time that leaves either goes on without it. -/
def Time.add (t : Time) (d : Int) : Time where
  wall := addWall t.wall d
  mono := t.mono.bind fun m =>
    let sec := addWall t.wall d / 10 ^ 9 - wallToInternal
    if 0 ≤ sec ∧ sec ≤ 2 ^ 33 - 1 ∧ m + d < 2 ^ 63 then some (m + d) else none

def Time.readings (a b : Time) : Int × Int :=
  match a.mono, b.mono with
  | some m, some n => (m, n)
  | _, _ => (a.wall, b.wall)

class Clock (τ : Type) where
  zero : τ
  wall : τ → Int
  readings : τ → τ → Int × Int
  add : τ → Int → τ

instance : Clock Time := ⟨⟨0, none⟩, Time.wall, Time.readings, Time.add⟩

variable {τ : Type} [Clock τ]
open Clock (wall readings)

abbrev IsZero (t : τ) : Prop := wall t = 0

def before (a b : τ) : Bool := decide ((readings a b).1 < (readings a b).2)

def equal (a b : τ) : Bool := decide ((readings a b).1 = (readings a b).2)

/-- The source's `!t.After(now)`. -/
def passed (now t : τ) : Bool := !before now t

theorem not_passed {now t : τ} : ¬ passed now t = true ↔ before now t = true := by
  simp [passed]

class Agreeing (τ : Type) [Clock τ] : Prop where
  apart : ∀ a b : τ, (readings a b).1 - wall a = (readings a b).2 - wall b
  wall_zero : wall (Clock.zero : τ) = 0
  wall_add : ∀ (t : τ) (d : Int), wall (Clock.add t d) = addWall (wall t) d

section
variable [Agreeing τ] {a b : τ}

theorem before_iff : before a b = true ↔ wall a < wall b := by
  have apart := Agreeing.apart a b
  rw [before, decide_eq_true_eq]
  omega

theorem equal_iff : equal a b = true ↔ wall a = wall b := by
  have apart := Agreeing.apart a b
  rw [equal, decide_eq_true_eq]
  omega

theorem passed_iff : passed a b = true ↔ wall b ≤ wall a := by
  rw [passed, Bool.not_eq_true', ← Bool.not_eq_true, before_iff, Int.not_lt]

end

/-- The times of a clock that nobody sets: the two readings are `offset` apart. -/
structure SteadyTime (offset : Int) extends Time where
  steady : mono = none ∨ mono = some (wall - offset)

variable {offset : Int}

theorem SteadyTime.steady_add (t : SteadyTime offset) (d : Int) :
    (t.toTime.add d).mono = none ∨
      (t.toTime.add d).mono = some ((t.toTime.add d).wall - offset) := by
  rcases t.steady with none | some
  · simp [Time.add, none]
  · simp only [Time.add, some, Option.bind_some]
    split_ifs with kept
    · right
      have exact : addWall t.wall d = t.wall + d := by
        unfold addWall lastSecond wallToInternal at *
        split_ifs at kept ⊢ <;> omega
      rw [exact]
      congr 1
      omega
    · exact .inl rfl

instance : Clock (SteadyTime offset) where
  zero := ⟨Clock.zero, .inl rfl⟩
  wall t := t.toTime.wall
  readings a b := a.toTime.readings b.toTime
  add t d := ⟨t.toTime.add d, t.steady_add d⟩

instance : Agreeing (SteadyTime offset) where
  apart a b := by
    change (a.toTime.readings b.toTime).1 - a.wall = (a.toTime.readings b.toTime).2 - b.wall
    unfold Time.readings
    rcases a.steady with none | some
    · simp [none]
    · rcases b.steady with none' | some'
      · simp [none']
      · simp only [some, some']
        omega
  wall_zero := rfl
  wall_add _ _ := rfl

end WheelClock
