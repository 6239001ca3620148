import Cellular.Wait.Poll
/-!
# Debouncing

A `Debouncer` holds at most one deadline.  Arming sets it, unless one is set already, which then
stays; cancelling takes it away.  One party waits for the deadline to pass, and once it has, the
debouncer is disarmed.

The waiting party may be asleep on a deadline that has been cancelled since, and perhaps replaced.
It tells by the generation, a 32-bit count of the arms and cancels that took effect.
-/

namespace Cellular

/-- A delayed action that can be called off before it is due. -/
structure Debouncer where
  /-- The span between arming and expiry. -/
  timeout : Nat
  /-- When the action is due, while it is armed. -/
  deadline : Option Nat := none
  /-- How often the deadline was set or taken away. -/
  generation : UInt32 := 0
  deriving DecidableEq, Repr

namespace Debouncer

/-- Whether a deadline is set. -/
def isArmed (d : Debouncer) : Bool := d.deadline.isSome

/-- Set the deadline.  Nothing changes, and the answer is `false`, when there is one. -/
def arm (d : Debouncer) (now : Nat) : Debouncer × Bool :=
  match d.deadline with
  | some _ => (d, false)
  | none =>
    ({ d with deadline := some (now + d.timeout), generation := d.generation + 1 }, true)

/-- Take the deadline away.  The answer is `false` when there is none. -/
def cancel (d : Debouncer) : Debouncer × Bool :=
  match d.deadline with
  | none => (d, false)
  | some _ => ({ d with deadline := none, generation := d.generation + 1 }, true)

/-- Where the party that waits for expiry stands. -/
inductive Sleeper where
  /-- Waiting for a deadline to be set. -/
  | idle
  /-- Asleep until the deadline that a generation set. -/
  | asleep (timer : Timer) (generation : UInt32)
  deriving DecidableEq, Repr

/-- The sleeper after it has looked for a deadline afresh. -/
def settle (d : Debouncer) : Sleeper :=
  match d.deadline with
  | none => .idle
  | some deadline => .asleep { expiresAt := deadline, polled := true } d.generation

/-- Poll the wait for expiry.  Expiry disarms. -/
def pollExpired (d : Debouncer) (now : Nat) : Sleeper → Debouncer × Poll Sleeper Unit
  | .idle => (d, .pending d.settle)
  | .asleep timer generation =>
    match timer.poll now with
    | .ready () =>
      if d.generation = generation then ({ d with deadline := none }, .ready ())
      else (d, .pending d.settle)
    | .pending timer =>
      if d.generation = generation then (d, .pending (.asleep timer generation))
      else (d, .pending d.settle)

/-- When a sleeper's timer expires, if it has one. -/
def Sleeper.timers : Sleeper → List Nat
  | .idle => []
  | .asleep timer _ => [timer.expiresAt]

end Debouncer

end Cellular
