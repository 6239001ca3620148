/-!
# The notice board of unsolicited codes

Codes are published on a board with a few seats.  Whoever holds a seat reads every code published
since it sat down, once and in order.  A code published while nobody is seated is lost.  The board
keeps a code until everyone who was seated has read it or left, in a bounded room; a code that finds
the room full is lost as well.

Everyone reads in order, so what a holder has not read is always the newest part of what the board
keeps.  A seat therefore is a list of unread codes, and the room taken is the length of the longest.
-/

namespace Cellular

/-- A board and the seats that are taken, each with its ticket and its unread codes. -/
structure Board (μ : Type) where
  /-- How many seats were ever taken: the ticket of the next one. -/
  issued : Nat := 0
  /-- The seats taken, in order, with what each has not read, oldest first. -/
  seats : List (Nat × List μ) := []
  deriving DecidableEq, Repr

namespace Board

variable {μ β : Type}

/-- How many codes the board keeps. -/
def capacity : Nat := 8

/-- How many seats there are. -/
def seatCount : Nat := 4

/-- How many codes the board keeps at the moment. -/
def backlog (b : Board μ) : Nat := (b.seats.map fun s => s.2.length).foldl max 0

/-- How many codes more there is room for. -/
def free (b : Board μ) : Nat := capacity - b.backlog

/-- Take a seat, if one is free: its ticket and the board. -/
def subscribe? (b : Board μ) : Option (Nat × Board μ) :=
  if b.seats.length < seatCount then
    some (b.issued, { issued := b.issued + 1, seats := b.seats ++ [(b.issued, [])] })
  else none

/-- Give a seat up. -/
def unsubscribe (b : Board μ) (ticket : Nat) : Board μ :=
  { b with seats := b.seats.filter (·.1 ≠ ticket) }

/-- Publish a code, if there is room for it. -/
def publish? (b : Board μ) (code : μ) : Option (Board μ) :=
  if b.backlog < capacity then
    some { b with seats := b.seats.map fun s => (s.1, s.2 ++ [code]) }
  else none

/-- What the holder of a ticket has not read. -/
def unread (b : Board μ) (ticket : Nat) : List μ :=
  ((b.seats.find? (·.1 = ticket)).map Prod.snd).getD []

/-- The board when the holder of a ticket has only `codes` left to read. -/
def setUnread (b : Board μ) (ticket : Nat) (codes : List μ) : Board μ :=
  { b with seats := b.seats.map fun s => if s.1 = ticket then (s.1, codes) else s }

/-- The next code for the holder of a ticket. -/
def next (b : Board μ) (ticket : Nat) : Option μ × Board μ :=
  match b.unread ticket with
  | [] => (none, b)
  | code :: codes => (some code, b.setUnread ticket codes)

/-- The first value that `filter` gives on a list of codes, and the codes behind that one.  When
there is no value, nothing is left. -/
def firstMatch (filter : μ → Option β) : List μ → Option β × List μ
  | [] => (none, [])
  | code :: codes =>
    match filter code with
    | some value => (some value, codes)
    | none => firstMatch filter codes

/-- Read on behalf of a ticket until `filter` gives a value, and no further. -/
def nextMatching (b : Board μ) (ticket : Nat) (filter : μ → Option β) : Option β × Board μ :=
  let (value, rest) := firstMatch filter (b.unread ticket)
  (value, b.setUnread ticket rest)

end Board

end Cellular
