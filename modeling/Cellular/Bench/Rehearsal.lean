import Cellular.Bench.Flight
import Cellular.Wait.Schedule
/-!
# Rehearsals

A rehearsal runs one procedure on a bench, with a background of events that happen at given moments:
lines that the modem emits of its own accord, and a caller who sets the cancellation token.
-/

namespace Cellular

/-- Something that happens of its own accord. -/
inductive Event where
  | line (line : Bytes)
  | cancel
  deriving DecidableEq, Repr

/-- Let an event happen. -/
def Bench.happen (b : Bench) : Event → Bench
  | .line line => b.emit line
  | .cancel => { b with cancelled := true }

/-- Events to come, in order, each with the wait for its moment. -/
abbrev Agenda := List (Timer × Event)

namespace Agenda

/-- Put an event before the first that happens no earlier. -/
def place (e : Nat × Event) : List (Nat × Event) → List (Nat × Event)
  | [] => [e]
  | f :: fs => if e.1 ≤ f.1 then e :: f :: fs else f :: place e fs

/-- The events in the order of their moments, those of one moment as they are listed. -/
def inOrder (events : List (Nat × Event)) : List (Nat × Event) := events.foldr place []

/-- The events at moments counted from `start`. -/
def ofList (start : Nat) (events : List (Nat × Event)) : Agenda :=
  (inOrder events).map fun e => (.due (start + e.1), e.2)

/-- Begin to wait for the next event. A timer's first poll is never its last. -/
def look : Agenda → Agenda
  | [] => []
  | (timer, event) :: rest => ({ timer with polled := true }, event) :: rest

/-- Poll the wait for the next event; once its moment has come it happens, and the wait for the one
after it begins. -/
def poll (b : Bench) : Agenda → Bench × Agenda
  | [] => (b, [])
  | (timer, event) :: rest =>
    match timer.poll b.now with
    | .pending timer => (b, (timer, event) :: rest)
    | .ready () => (b.happen event, look rest)

/-- When the wait for the next event is over. -/
def timers : Agenda → List Nat
  | [] => []
  | (timer, _) :: _ => [timer.expiresAt]

end Agenda

/-- A procedure on a bench, and what happens meanwhile. -/
structure Rehearsal (α : Type) where
  /-- The bench. -/
  bench : Bench
  /-- The procedure, or what it ended in. -/
  main : Poll (Flight α) α
  /-- The events to come. -/
  agenda : Agenda

namespace Rehearsal

variable {α : Type}

/-- The procedure's turn. -/
def pollMain (r : Rehearsal α) : Rehearsal α :=
  match r.main with
  | .ready _ => r
  | .pending flight =>
    let (bench, main) := flight.poll r.bench
    { r with bench, main }

/-- The background's turn. -/
def pollAgenda (r : Rehearsal α) : Rehearsal α :=
  let (bench, agenda) := r.agenda.poll r.bench
  { r with bench, agenda }

/-- The procedure first, then the background. -/
def schedule : Schedule (Rehearsal α) (Bool × Board Urc) where
  tasks := [pollMain, pollAgenda]
  signals r := (r.bench.cancelled, r.bench.board)
  timers r := (r.main.next?.map Flight.timers).getD [] ++ r.agenda.timers
  now r := r.bench.now
  setNow now r := { r with bench := { r.bench with now } }
  isOver r := r.main.next?.isNone

/-- Run a procedure on a bench for at most `rounds` rounds: what it ended in, if it did, and the
bench after it. -/
def run (rounds : Nat) (b : Bench) (events : List (Nat × Event)) (p : Procedure α) :
    Option α × Bench :=
  let r := schedule.run rounds
    { bench := b, main := .pending (.start p), agenda := .ofList b.now events }
  (r.main.value?, r.bench)

end Rehearsal

end Cellular
