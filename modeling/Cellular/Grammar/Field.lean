import Cellular.Grammar.Scanner
/-!
# Comma separated fields

A line of a reply is a list of fields with commas between them.  A field is quoted, and then may
hold anything but a quotation mark, or bare, and then runs to the next comma or line break.  Spacing
in front of a field and around a comma is not part of any field; behind a bare field it is.  A
quotation mark without a second one opens no quoted field: the field is then bare, and the mark
belongs to it.
-/

namespace Cellular.Scanner

/-- Octets that end a bare field. -/
def endsBare (b : UInt8) : Bool := b == 44 || Bytes.isLineBreak b

/-- One field, with its quotation marks taken off. -/
def field : Scanner Bytes := fun bs =>
  let bs := skipPads bs
  quoted bs <|> some (bs.takeWhile (!endsBare ·), bs.dropWhile (!endsBare ·))

/-- Every field up to the end of the line, at most `capacity` of them. -/
def fields : (capacity : Nat) → Scanner (List Bytes)
  | 0, _ => none
  | capacity + 1, bs => do
    let (first, rest) ← field bs
    match comma rest with
    | none => some ([first], rest)
    | some rest => (fields capacity rest).map fun (more, rest) => (first :: more, rest)

/-- The fields behind `tag`, at most `capacity` of them. -/
def taggedFields? (header : Bytes) (capacity : Nat) (bs : Bytes) : Option (List Bytes) :=
  (tag header bs).bind (item? (fields capacity))

example : item? (fields 8) (Bytes.ofString "1,\"a,b\", c,\"\"")
    = some (["1", "a,b", "c", ""].map Bytes.ofString) := by decide +kernel

end Cellular.Scanner
