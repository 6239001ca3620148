import Cellular.Bench.Basic
/-!
# Procedures in flight

A procedure that runs on a bench is always at one of its waits: a command whose answer is on its
way, a pause, or a command that is joined with a code.  `Flight` is that place.  A poll moves it as
far as it goes without waiting.
-/

namespace Cellular

/-- The wait for the reply of a joined command. -/
inductive JoinedReply where
  /-- The command is not sent yet. -/
  | unsent
  /-- The answer is on its way. -/
  | awaited (reply : Bench.Reply)

/-- The wait for the two signals of a joined command. -/
abbrev JoinedWait := Join JoinedReply Unit Unit Urc

/-- A procedure at one of its waits. -/
inductive Flight (α : Type) where
  /-- Nothing of it was done yet. -/
  | start (procedure : Procedure α)
  /-- An answer is on its way. -/
  | reply (wait : Bench.Reply) (next : Except LinkError Bytes → Procedure α)
  /-- A pause. -/
  | pause (timer : Timer) (next : Procedure α)
  /-- A joined command. -/
  | join (command : JoinedCommand) (wait : JoinedWait) (next : Join.Outcome Unit Urc → Procedure α)

namespace JoinedCommand

/-- Poll the wait for the reply; the first poll sends the command. -/
def pollReply (c : JoinedCommand) (wait : JoinedReply) (b : Bench) :
    Bench × Poll JoinedReply (Except Error Unit) :=
  let (b, poll) := match wait with
    | .unsent => b.send c.request
    | .awaited reply => b.pollReply reply
  (b, (poll.mapNext .awaited).map c.settle)

/-- Poll the wait for the code: read up to the first that is wanted. -/
def pollCode (c : JoinedCommand) (_ : Unit) (b : Bench) : Bench × Poll Unit Urc :=
  match b.board.nextMatching c.ticket fun code => if c.wanted code then some code else none with
  | (some code, board) => ({ b with board }, .ready code)
  | (none, board) => ({ b with board }, .pending ())

/-- The two waits. -/
def signals (c : JoinedCommand) : Join.Signals Bench JoinedReply Unit Unit Urc :=
  { reply := c.pollReply, notification := c.pollCode, now := Bench.now }

/-- Poll the joined wait. -/
def poll (c : JoinedCommand) (wait : JoinedWait) (b : Bench) :
    Bench × Poll JoinedWait (Join.Outcome Unit Urc) :=
  wait.poll c.terms c.signals b

/-- The joined wait at its beginning. -/
def start (c : JoinedCommand) (now : Nat) : JoinedWait := Join.start c.terms now .unsent ()

end JoinedCommand

namespace Procedure

variable {α : Type}

/-- Run a procedure on a bench up to its first wait that is not over. -/
def advance : Procedure α → Bench → Bench × Poll (Flight α) α
  | done a, b => (b, .ready a)
  | send r k, b =>
    match b.send r with
    | (b, .ready answer) => (k answer).advance b
    | (b, .pending wait) => (b, .pending (.reply wait k))
  | pause span k, b =>
    match (Timer.after b.now span).poll b.now with
    | .ready () => k.advance b
    | .pending timer => (b, .pending (.pause timer k))
  | observe k, b => (k b.cancelled).advance (b.tell (.looked b.cancelled))
  | subscribe k, b =>
    let (b, ticket) := b.subscribe
    (k ticket).advance b
  | unsubscribe ticket k, b => k.advance (b.unsubscribe ticket)
  | join c k, b =>
    match c.poll (c.start b.now) b with
    | (b, .ready outcome) => (k outcome).advance b
    | (b, .pending wait) => (b, .pending (.join c wait k))
  | parent call k, b =>
    let (b, answer) := b.askParent call
    (k answer).advance b
  | parentModes k, b =>
    let (b, answer) := b.askParentModes
    (k answer).advance b

end Procedure

namespace Flight

variable {α : Type}

/-- Poll a procedure in flight. -/
def poll : Flight α → Bench → Bench × Poll (Flight α) α
  | start p, b => p.advance b
  | reply wait k, b =>
    match b.pollReply wait with
    | (b, .ready answer) => (k answer).advance b
    | (b, .pending wait) => (b, .pending (.reply wait k))
  | pause timer k, b =>
    match timer.poll b.now with
    | .ready () => k.advance b
    | .pending timer => (b, .pending (.pause timer k))
  | join c wait k, b =>
    match c.poll wait b with
    | (b, .ready outcome) => (k outcome).advance b
    | (b, .pending wait) => (b, .pending (.join c wait k))

/-- When the timers of the wait expire. -/
def timers : Flight α → List Nat
  | start _ => []
  | reply wait _ => [wait.timer.expiresAt]
  | pause timer _ => [timer.expiresAt]
  | join _ wait _ =>
    wait.deadline.expiresAt :: match wait.reply with
      | some (.awaited answer) => [answer.timer.expiresAt]
      | _ => []

end Flight

end Cellular
