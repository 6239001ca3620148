import Cellular.Wait.Join
import Cellular.Wait.Schedule
/-!
# Signals that arrive at given moments

The simplest things to wait for: a signal that is there at once, one that comes after a span of
time, and one that never comes.  `Rendezvous` joins two of them on a virtual clock.
-/

namespace Cellular

/-- When a signal arrives. -/
inductive Arrival where
  /-- At once. -/
  | immediate
  /-- When a timer is ready. -/
  | timed (timer : Timer)
  /-- Never. -/
  | never
  deriving DecidableEq, Repr

namespace Arrival

/-- Poll the wait for a signal with a value. -/
def poll {α : Type} (value : α) (now : Nat) : Arrival → Poll Arrival α
  | immediate => .ready value
  | timed timer => (timer.poll now |>.mapNext timed).map fun _ => value
  | never => .pending never

/-- When the timer of the wait expires. -/
def timers : Arrival → List Nat
  | timed timer => [timer.expiresAt]
  | _ => []

end Arrival

/-- A joined wait for two such signals, on a clock of its own. -/
structure Rendezvous (ρ ν : Type) where
  /-- The clock. -/
  now : Nat := 0
  /-- The wait, or what it ended in. -/
  main : Poll (Join Arrival Arrival ρ ν) (Join.Outcome ρ ν)

namespace Rendezvous

variable {ρ ν : Type}

/-- The two waits; each gives its value when its signal is there. -/
def signals (reply : Except Error ρ) (notification : ν) :
    Join.Signals Nat Arrival Arrival ρ ν where
  reply wait now := (now, wait.poll reply now)
  notification wait now := (now, wait.poll notification now)
  now := id

/-- When the timers of a joined wait expire. -/
def joinTimers (j : Join Arrival Arrival ρ ν) : List Nat :=
  j.deadline.expiresAt ::
    ((j.reply.map Arrival.timers).getD [] ++ (j.notification.map Arrival.timers).getD [])

/-- The joined wait is all there is. -/
def schedule (terms : Join.Terms) (reply : Except Error ρ) (notification : ν) :
    Schedule (Rendezvous ρ ν) Unit where
  tasks := [fun r => match r.main with
    | .ready _ => r
    | .pending j => { r with main := (j.poll terms (signals reply notification) r.now).2 }]
  signals _ := ()
  timers r := (r.main.next?.map joinTimers).getD []
  now r := r.now
  setNow now r := { r with now }
  isOver r := r.main.next?.isNone

/-- Join two signals from time 0 on, for at most `rounds` rounds: the outcome, and when it was
there. -/
def run (rounds : Nat) (terms : Join.Terms) (reply : Arrival × Except Error ρ)
    (notification : Arrival × ν) : Option (Join.Outcome ρ ν) × Nat :=
  let r := (schedule terms reply.2 notification.2).run rounds
    { main := .pending (Join.start terms 0 reply.1 notification.1) }
  (r.main.value?, r.now)

end Rendezvous

end Cellular
