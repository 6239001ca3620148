import Cellular.Wait.Debouncer
import Cellular.Wait.Schedule
/-!
# A debouncer over time

One party arms and cancels a debouncer and waits in between; another waits for it to expire, over
and over, and takes down when it did.
-/

namespace Cellular

/-- What is done with a debouncer. -/
inductive DebounceStep where
  | arm
  | cancel
  | wait (span : Nat)
  deriving DecidableEq, Repr

/-- What came of a step. -/
structure DebounceEntry where
  effect : Option Bool
  armed : Bool
  time : Nat
  deriving DecidableEq, Repr

/-- A debouncer and the two parties. -/
structure DebounceRun where
  /-- The clock. -/
  now : Nat := 0
  /-- The debouncer. -/
  debouncer : Debouncer
  /-- The steps to come. -/
  steps : List DebounceStep
  /-- The wait that is under way. -/
  timer : Option Timer := none
  /-- What came of the steps so far. -/
  entries : List DebounceEntry := []
  /-- The party that waits for expiry. -/
  sleeper : Debouncer.Sleeper := .idle
  /-- When the debouncer expired. -/
  fired : List Nat := []
  deriving DecidableEq, Repr

namespace DebounceRun

/-- Take down what came of a step. -/
def enter (r : DebounceRun) (effect : Option Bool) : DebounceRun :=
  { r with entries := r.entries ++ [⟨effect, r.debouncer.isArmed, r.now⟩] }

/-- Take steps up to the next wait. -/
def advance : List DebounceStep → DebounceRun → DebounceRun
  | [], r => { r with steps := [], timer := none }
  | .arm :: steps, r =>
    let (debouncer, effect) := r.debouncer.arm r.now
    advance steps ({ r with debouncer }.enter (some effect))
  | .cancel :: steps, r =>
    let (debouncer, effect) := r.debouncer.cancel
    advance steps ({ r with debouncer }.enter (some effect))
  | .wait span :: steps, r =>
    { r with steps, timer := some { expiresAt := r.now + span, polled := true } }

/-- The turn of the party that takes the steps. -/
def pollSteps (r : DebounceRun) : DebounceRun :=
  match r.timer with
  | none => advance r.steps r
  | some timer =>
    match timer.poll r.now with
    | .pending timer => { r with timer := some timer }
    | .ready () => advance r.steps (r.enter none)

/-- The turn of the party that waits for expiry. -/
def pollExpiry (r : DebounceRun) : DebounceRun :=
  match r.debouncer.pollExpired r.now r.sleeper with
  | (debouncer, .pending sleeper) => { r with debouncer, sleeper }
  | (debouncer, .ready ()) =>
    { r with debouncer, sleeper := debouncer.settle, fired := r.fired ++ [r.now] }

/-- The steps first, then the wait for expiry. -/
def schedule : Schedule DebounceRun (Option Nat × UInt32) where
  tasks := [pollSteps, pollExpiry]
  signals r := (r.debouncer.deadline, r.debouncer.generation)
  timers r := (r.timer.map fun t => [t.expiresAt]).getD [] ++ r.sleeper.timers
  now r := r.now
  setNow now r := { r with now }
  isOver r := r.timer.isNone && r.steps.isEmpty

/-- Take steps with a fresh debouncer from time 0 on, for at most `rounds` rounds. -/
def run (rounds timeout : Nat) (steps : List DebounceStep) : DebounceRun :=
  schedule.run rounds { debouncer := { timeout }, steps }

end DebounceRun

end Cellular
