import Cellular.Procedure.Basic
import Cellular.Unsolicited.Board
import Cellular.Unsolicited.Digest
/-!
# A modem on the bench

To try out what is written for a modem one puts it on a bench: a port whose far end follows a
script, a board for unsolicited codes, a cancellation token, a clock, and a log of everything that
was sent.

The script has a turn for each command.  A turn may set the token, emit lines, wait, emit more
lines, and then gives the answer; a command without a turn is answered with an error at once.  A
line that is emitted goes through the digest and, when it is a code, onto the board.

The bench also keeps a history, for the theory: what was sent and answered, every look at the token
and every code that reached the board.  Nothing depends on it.
-/

namespace Cellular

/-- What the far end does on one command. -/
structure Turn where
  /-- Whether the token is set first. -/
  cancels : Bool := false
  /-- The lines that are emitted at once. -/
  before : List Bytes := []
  /-- How long the answer takes, if it takes time at all. -/
  delay : Option Nat := none
  /-- The lines that are emitted just before the answer. -/
  after : List Bytes := []
  /-- The answer. -/
  answer : Except LinkError Bytes := .error .error

/-- A line of the log. -/
inductive Record where
  | sent (request : Request)
  | parent (call : ParentCall)
  | parentModes
  | lost
  | connect
  | disconnect
  deriving DecidableEq, Repr

/-- An entry of the history. -/
inductive Happening where
  /-- A command was sent. -/
  | sent (request : Request)
  /-- The answer to a command came. -/
  | answered (answer : Except LinkError Bytes)
  /-- A procedure looked whether the token is set. -/
  | looked (cancelled : Bool)
  /-- A code was published on the board. -/
  | published (code : Urc)

/-- A port with a scripted far end, and what belongs to it. -/
structure Bench where
  /-- The clock, in milliseconds. -/
  now : Nat := 0
  /-- Whether the cancellation token is set. -/
  cancelled : Bool := false
  /-- The board of unsolicited codes. -/
  board : Board Urc := {}
  /-- What the far end does on the commands to come. -/
  script : List Turn := []
  /-- What happened so far, with its time. -/
  log : List (Nat × Record) := []
  /-- How every call to the generic modem fails, if it does. -/
  parentFault : Option Error := none
  /-- The modes of the generic modem. -/
  parentModes : List ModeCombination := []
  /-- The history, with times. -/
  history : List (Nat × Happening) := []

namespace Bench

/-- Add a line to the log. -/
def note (b : Bench) (r : Record) : Bench := { b with log := b.log ++ [(b.now, r)] }

/-- Add an entry to the history. -/
def tell (b : Bench) (h : Happening) : Bench := { b with history := b.history ++ [(b.now, h)] }

/-- Emit a line. -/
def emit (b : Bench) (line : Bytes) : Bench :=
  match Urc.ofSentLine? line with
  | none => b
  | some code =>
    match b.board.publish? code with
    | some board => { b with board }.tell (.published code)
    | none => b.note .lost

/-- Emit lines one after another. -/
def emitAll (b : Bench) (lines : List Bytes) : Bench := lines.foldl emit b

/-- An answer on its way. -/
structure Reply where
  timer : Timer
  after : List Bytes
  answer : Except LinkError Bytes

/-- The answer comes, right behind the lines that are emitted just before it. -/
def conclude (b : Bench) (after : List Bytes) (answer : Except LinkError Bytes) : Bench :=
  (b.emitAll after).tell (.answered answer)

/-- Poll the wait for an answer. -/
def pollReply (b : Bench) (r : Reply) : Bench × Poll Reply (Except LinkError Bytes) :=
  match r.timer.poll b.now with
  | .pending timer => (b, .pending { r with timer })
  | .ready () => (b.conclude r.after r.answer, .ready r.answer)

/-- Send a command and poll the wait for its answer. -/
def send (b : Bench) (request : Request) : Bench × Poll Reply (Except LinkError Bytes) :=
  let b := (b.note (.sent request)).tell (.sent request)
  match b.script with
  | [] => (b.conclude [] (.error .error), .ready (.error .error))
  | turn :: script =>
    let b := { b with script, cancelled := b.cancelled || turn.cancels }
    let b := b.emitAll turn.before
    match turn.delay with
    | none => (b.conclude turn.after turn.answer, .ready turn.answer)
    | some span => b.pollReply ⟨.after b.now span, turn.after, turn.answer⟩

/-- Ask something of the generic modem. -/
def askParent (b : Bench) (call : ParentCall) : Bench × Except Error Unit :=
  (b.note (.parent call), b.parentFault.elim (.ok ()) .error)

/-- Ask the generic modem for its modes; its list holds only so many. -/
def askParentModes (b : Bench) : Bench × Except Error (List ModeCombination) :=
  (b.note .parentModes, b.parentFault.elim
    (.ok (b.parentModes.take ModeCombination.listCapacity)) .error)

/-- Take a seat on the board, if one is free. -/
def subscribe (b : Bench) : Bench × Option Nat :=
  match b.board.subscribe? with
  | some (ticket, board) => ({ b with board }, some ticket)
  | none => (b, none)

/-- Give a seat up. -/
def unsubscribe (b : Bench) (ticket : Nat) : Bench :=
  { b with board := b.board.unsubscribe ticket }

end Bench

end Cellular
