import Cellular.Procedure.Basic
/-!
# Operations

An `Operation` is a procedure that may fail and that works on the state of a modem.  What was
written to the state before a failure stays written.

Commands come in three ways.  `send` fails when its command does.  `attempt` gives the failure as a
value.  A `step` is one command of a sequence: where the sequence is watched it looks at the
cancellation token first, and a soft step puts up with the failure of its command, though not with a
reply that cannot be read.
-/

namespace Cellular

/-- What a failed command does to the operation it is a step of. -/
inductive Severity where
  | fatal
  | soft
  deriving DecidableEq, Repr

/-- What the answer to a command means. -/
def Command.outcome {α : Type} (c : Command α) : Except LinkError Bytes → Except Error α
  | .error e => .error (.ofLink e)
  | .ok reply =>
    match c.read reply with
    | some a => .ok a
    | none => .error (.ofLink .parse)

/-- What the outcome of a command means for a step of that severity: its value, or nothing where the
failure is put up with. -/
def Severity.outcome {α : Type} (severity : Severity) : Except Error α → Except Error (Option α)
  | .ok a => .ok (some a)
  | .error e => if severity = .soft ∧ e.isCommandFailure then .ok none else .error e

/-- A procedure over the state of a modem that may fail. -/
abbrev Operation (σ : Type) := ExceptT Error (StateT σ Procedure)

namespace Operation

variable {σ α : Type}

/-- What a procedure ends in. -/
def perform (p : Procedure α) : Operation σ α := ExceptT.lift (StateT.lift p)

/-- What a procedure ends in, if that is no failure. -/
def require (p : Procedure (Except Error α)) : Operation σ α := ExceptT.mk (StateT.lift p)

/-- Send a command; a failure is a value. -/
def attempt (c : Command α) : Operation σ (Except Error α) :=
  perform (.send c.request fun answer => .done (c.outcome answer))

/-- Send a command. -/
def send (c : Command α) : Operation σ α :=
  require (.send c.request fun answer => .done (c.outcome answer))

/-- Fail if the cancellation token is set. -/
def checkToken : Operation σ Unit :=
  require (.observe fun cancelled => .done (if cancelled then .error .cancelled else .ok ()))

/-- Send a command as a step of a sequence, which is watched or not. -/
def step (watched : Bool) (severity : Severity) (c : Command α) : Operation σ (Option α) := do
  if watched then checkToken
  require (.send c.request fun answer => .done (severity.outcome (c.outcome answer)))

/-- Wait for a span of time. -/
def pause (span : Nat) : Operation σ Unit := perform (.pause span (.done ()))

/-- Ask something of the generic modem. -/
def parent (call : ParentCall) : Operation σ Unit := require (.parent call .done)

/-- Ask the generic modem for its modes. -/
def parentModes : Operation σ (List ModeCombination) := require (.parentModes .done)

/-- Run an operation and give its failure as a value. -/
def catching (inner : Operation σ α) : Operation σ (Except Error α) := ExceptT.lift inner.run

/-- Take a seat on the board: its ticket. -/
def takeSeat : Operation σ Nat :=
  require (.subscribe fun
    | some ticket => .done (.ok ticket)
    | none => .done (.error (.subscriberOverflow .subscribers)))

/-- Run an operation with a seat on the board, which is given up however the operation ends. -/
def withSeat (inner : Nat → Operation σ α) : Operation σ α := do
  let ticket ← takeSeat
  let outcome ← catching (inner ticket)
  require (.unsubscribe ticket (.done outcome))

/-- Send a command and wait for both its reply and a code that is wanted. -/
def join (c : Command Unit) (severity : Severity) (ticket : Nat) (wanted : Urc → Bool)
    (terms : Join.Terms) : Operation σ (Except Error Unit × Urc) :=
  let settle answer := (severity.outcome (c.outcome answer)).map fun _ => ()
  require (.join { request := c.request, settle, ticket, wanted, terms } .done)

end Operation

end Cellular
