import Cellular.Bench.Rehearsal
/-!
# Waiting on a bench for the token or a code

Two waits that have no procedure of their own: for the cancellation token to be set, and for the
first code on the board that fits.  Events happen meanwhile.  A wait that nothing can end any more
is left as it is.
-/

namespace Cellular

/-- A bench on which something is awaited that yields an `α`. -/
structure Listening (α : Type) where
  bench : Bench
  found : Option α := none
  seen : Nat := 0
  agenda : Agenda

namespace Listening

variable {α : Type}

/-- A look at the token. -/
def pollToken (l : Listening Unit) : Listening Unit :=
  if l.bench.cancelled then { l with found := some () } else l

/-- A look at the codes on the board, up to the first that fits. -/
def pollBoard (ticket : Nat) (filter : Urc → Option α) (l : Listening α) : Listening α :=
  let before := l.bench.board.unread ticket
  let (found, board) := l.bench.board.nextMatching ticket filter
  { l with bench := { l.bench with board }, found,
           seen := l.seen + (before.length - (board.unread ticket).length) }

/-- The background's turn. -/
def pollAgenda (l : Listening α) : Listening α :=
  let (bench, agenda) := l.agenda.poll l.bench
  { l with bench, agenda }

/-- The wait first, then the background. -/
def schedule (poll : Listening α → Listening α) : Schedule (Listening α) (Bool × Board Urc) where
  tasks := [poll, pollAgenda]
  signals l := (l.bench.cancelled, l.bench.board)
  timers l := l.agenda.timers
  now l := l.bench.now
  setNow now l := { l with bench := { l.bench with now } }
  isOver l := l.found.isSome

/-- Wait for the token for at most `rounds` rounds. -/
def token (rounds : Nat) (b : Bench) (events : List (Nat × Event)) : Listening Unit :=
  (schedule pollToken).run rounds { bench := b, agenda := .ofList b.now events }

/-- Wait for a code for at most `rounds` rounds. -/
def code (rounds : Nat) (b : Bench) (events : List (Nat × Event)) (ticket : Nat)
    (filter : Urc → Option α) : Listening α :=
  (schedule (pollBoard ticket filter)).run rounds { bench := b, agenda := .ofList b.now events }

end Listening

end Cellular
