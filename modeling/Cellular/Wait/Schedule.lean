import Cellular.Wait.Poll
/-!
# Running tasks on a virtual clock

Several tasks share one state.  A `Schedule` polls them in a fixed order, the main task first.  Such
rounds repeat at one moment until a round changes nothing that another task may be waiting for; then
the clock goes to the earliest timer that is still alive.  A run is over as soon as the main task
is, even in the middle of a round, and also when nothing is left to wait for.

What tasks may be waiting for, timers apart, is given by `signals`: a task changed something when
the signals after its poll differ from those before it.
-/

namespace Cellular

/-- Tasks over a common state `σ`, and what the clock has to know about them. -/
structure Schedule (σ κ : Type) where
  tasks : List (σ → σ)
  signals : σ → κ
  timers : σ → List Nat
  now : σ → Nat
  setNow : Nat → σ → σ
  isOver : σ → Bool

namespace Schedule

variable {σ κ : Type} [DecidableEq κ]

/-- Poll tasks one after another until the run is over; the answer says whether any of them changed
something. -/
def pollEach (p : Schedule σ κ) : List (σ → σ) → σ → Bool → σ × Bool
  | [], s, stirred => (s, stirred)
  | task :: tasks, s, stirred =>
    let before := p.signals s
    let s := task s
    let stirred := stirred || decide (p.signals s ≠ before)
    if p.isOver s then (s, stirred) else p.pollEach tasks s stirred

/-- One round over all tasks. -/
def round (p : Schedule σ κ) (s : σ) : σ × Bool := p.pollEach p.tasks s false

/-- The earliest moment in a list. -/
def earliest? : List Nat → Option Nat
  | [] => none
  | t :: ts => some (ts.foldl min t)

/-- Run for at most `rounds` rounds. -/
def run (p : Schedule σ κ) : (rounds : Nat) → σ → σ
  | 0, s => s
  | rounds + 1, s =>
    let (s, stirred) := p.round s
    if p.isOver s then s
    else if stirred then p.run rounds s
    else match earliest? (p.timers s) with
      | none => s
      | some moment => p.run rounds (p.setNow (max (p.now s) moment) s)

end Schedule

end Cellular
