/-!
# Waiting, poll by poll

Whatever takes time is a machine that is polled: a poll either yields a value, and the wait is over,
or leaves the machine in a state to be polled again.  All code between two polls is atomic, and time
only passes between polls.

The machine that everything else rests on is the `Timer`.  It always yields once: even one that is
due when it is first polled is ready only at a later poll.
-/

namespace Cellular

/-- What a poll of a wait in state `ι` for a value of type `α` gives. -/
inductive Poll (ι α : Type) where
  /-- Not yet; this is the state to poll next. -/
  | pending (next : ι)
  /-- The value. -/
  | ready (value : α)
  deriving DecidableEq, Repr

namespace Poll

variable {ι κ α β : Type}

/-- The state to poll next, if the wait is not over. -/
def next? : Poll ι α → Option ι
  | pending i => some i
  | ready _ => none

/-- The value, if the wait is over. -/
def value? : Poll ι α → Option α
  | pending _ => none
  | ready a => some a

/-- The same poll with its state changed. -/
def mapNext (f : ι → κ) : Poll ι α → Poll κ α
  | pending i => pending (f i)
  | ready a => ready a

/-- The same poll with its value changed. -/
def map (f : α → β) : Poll ι α → Poll ι β
  | pending i => pending i
  | ready a => ready (f a)

end Poll

/-- A wait for a moment of the clock, in milliseconds. -/
structure Timer where
  /-- The moment. -/
  expiresAt : Nat
  /-- Whether the timer has been polled before. -/
  polled : Bool := false
  deriving DecidableEq, Repr

namespace Timer

/-- The timer for a moment. -/
def due (moment : Nat) : Timer := { expiresAt := moment }

/-- The timer for the end of a span that begins now. -/
def after (now span : Nat) : Timer := { expiresAt := now + span }

/-- Poll the timer. -/
def poll (t : Timer) (now : Nat) : Poll Timer Unit :=
  if t.polled ∧ t.expiresAt ≤ now then .ready () else .pending { t with polled := true }

/-- A timer's first poll is never its last. -/
theorem poll_after (now span : Nat) :
    (after now span).poll now = .pending { expiresAt := now + span, polled := true } := by
  simp [after, poll]

end Timer

end Cellular
