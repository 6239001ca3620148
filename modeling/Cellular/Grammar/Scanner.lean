import Cellular.Text.Decimal
import Cellular.Text.Blank
/-!
# Scanners

A scanner reads something off the front of a list of octets and hands back what follows, or refuses.
The reply grammar is put together from the few scanners here: a fixed tag, a separator, a number,
a quoted stretch.  Spaces and tabs are allowed around tags and separators and in front of numbers,
nowhere else.
-/

namespace Cellular

/-- Reads an `α` off the front of its input and gives what follows it, or refuses. -/
abbrev Scanner (α : Type) := Bytes → Option (α × Bytes)

namespace Scanner

/-- Without the spaces and tabs in front. -/
def skipPads (bs : Bytes) : Bytes := bs.dropWhile Bytes.isPad

/-- What follows the octet `b`, when the input begins with it. -/
def octet (b : UInt8) : Bytes → Option Bytes
  | [] => none
  | c :: rest => if c = b then some rest else none

/-- What follows `tag`, with spacing allowed on either side of it. -/
def tag (tag : Bytes) (bs : Bytes) : Option Bytes :=
  (Bytes.dropTag? tag (skipPads bs)).map skipPads

/-- What follows a comma, with spacing allowed on either side of it. -/
def comma (bs : Bytes) : Option Bytes :=
  (octet 44 (skipPads bs)).map skipPads

/-- The octets between a quotation mark in front and the next one. -/
def quoted (bs : Bytes) : Option (Bytes × Bytes) := do
  let rest ← octet Bytes.quote bs
  let inner := rest.takeWhile (· != Bytes.quote)
  let rest ← octet Bytes.quote (rest.dropWhile (· != Bytes.quote))
  return (inner, rest)

/-- A scanner's item between two quotation marks that stand directly around it. -/
def inQuotes {α : Type} (item : Scanner α) : Scanner α := fun bs => do
  let rest ← octet Bytes.quote bs
  let (a, rest) ← item rest
  let rest ← octet Bytes.quote rest
  return (a, rest)

/-- A number of 32 bits, quoted or bare. -/
def number : Scanner Nat := fun bs =>
  let bs := skipPads bs
  inQuotes (Decimal.scan Decimal.word32) bs <|> Decimal.scan Decimal.word32 bs

/-- The item of a scanner, whatever follows it. -/
def item? {α : Type} (scan : Scanner α) (bs : Bytes) : Option α :=
  (scan bs).map Prod.fst

/-- The text of a field: its characters without blanks at either end. -/
def text? (field : Bytes) : Option (List Char) :=
  (Bytes.chars? field).map Text.trim

/-- The text of a field as a string of at most `capacity` octets. -/
def clippedText? (capacity : Nat) (cs : List Char) : Option String :=
  if (Bytes.ofChars cs).length ≤ capacity then some (String.ofList cs) else none

example : number (Bytes.ofString " \"12\",") = some (12, Bytes.ofString ",") := by decide +kernel
example :
    quoted (Bytes.ofString "\"a,b\" ,") = some (Bytes.ofString "a,b", Bytes.ofString " ,") := by
  decide +kernel

end Scanner

end Cellular
