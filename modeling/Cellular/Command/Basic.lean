import Cellular.Reply.Support
/-!
# Commands

A command is a line of text for the modem together with a reader for its reply.  The text is `AT`,
the name, the arguments with commas between them, and a line end; most commands have an equals sign
between name and arguments, some have a name that ends in what separates them.  Strings are written
between quotation marks and nothing in them is escaped.  An argument that is left out takes the
comma before it along.
-/

namespace Cellular

/-- An argument of a command. -/
inductive Argument where
  | number (n : Nat)
  | quoted (s : String)
  deriving DecidableEq, Repr

/-- The argument as it is sent. -/
def Argument.text : Argument → String
  | .number n => n.repr
  | .quoted s => "\"" ++ s ++ "\""

/-- What a command puts on the line. -/
structure Request where
  name : String
  arguments : List (Option Argument) := []
  separated : Bool := true
  timeout : Nat
  deriving DecidableEq, Repr

namespace Request

/-- The arguments with commas between them. -/
def argumentText (r : Request) : String :=
  ",".intercalate ((r.arguments.filterMap id).map Argument.text)

/-- The command without what frames it. -/
def body (r : Request) : String :=
  if r.arguments.isEmpty then r.name
  else if r.separated then r.name ++ "=" ++ r.argumentText
  else r.name ++ r.argumentText

/-- The whole line. -/
def line (r : Request) : String := "AT" ++ r.body ++ "\r\n"

end Request

/-- A command whose reply is read as an `α`. -/
structure Command (α : Type) where
  request : Request
  read : Bytes → Option α

namespace Command

/-- A command without arguments that expects an empty reply. -/
def plain (name : String) (timeout : Nat) : Command Unit := ⟨{ name, timeout }, empty?⟩

/-- A command that expects an empty reply. -/
def set (name : String) (arguments : List (Option Argument)) (timeout : Nat) : Command Unit :=
  ⟨{ name, arguments, timeout }, empty?⟩

/-- A command whose name ends in what separates it from its arguments. -/
def joined (name : String) (arguments : List (Option Argument)) (timeout : Nat) : Command Unit :=
  ⟨{ name, arguments, separated := false, timeout }, empty?⟩

/-- A command without arguments whose reply is read. -/
def query {α : Type} (name : String) (read : Bytes → Option α) (timeout : Nat) : Command α :=
  ⟨{ name, timeout }, read⟩

end Command

end Cellular
