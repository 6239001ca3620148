import Cellular.Grammar.Scanner
/-!
# Values by position

Plain replies such as `+CREG: 1,"00C3","0000A13F",7` carry values that are told apart by their
position alone.  A `Cursor` walks over such a reply: `start?` skips a header that begins with a plus
sign and ends at the first colon, each field is approached across at most one comma and then read as
a small number or as a string, and at the end only white space may be left.

A value that begins without a comma before it is in order once, for the first field.  Later on only
the last field of a reply may do without, as may a value that begins with a plus sign.
-/

namespace Cellular

/-- What is left of a reply, and whether a value has already begun without a comma before it. -/
structure Cursor where
  /-- What is left. -/
  rest : Bytes
  /-- Whether a value has begun without a comma. -/
  begun : Bool := false
  deriving DecidableEq, Repr

namespace Cursor

/-- White space between values: space, tab, line feed, carriage return. -/
def isGap (b : UInt8) : Bool := b == 32 || b == 9 || b == 10 || b == 13

/-- Without the white space in front. -/
def skipGaps (bs : Bytes) : Bytes := bs.dropWhile isGap

/-- The start of the values: the reply without white space at its ends and without its header.  A
header with nothing behind it is refused. -/
def start? (reply : Bytes) : Option Cursor :=
  let bs := Bytes.trim reply
  if bs.head? = some 43 ∧ bs.contains 58 then
    match skipGaps ((bs.dropWhile (· != 58)).drop 1) with
    | [] => none
    | rest => some { rest }
  else some { rest := bs }

/-- The place where the next value begins, behind white space and at most one comma.  A comma with
nothing behind it is refused. -/
def approach (last : Bool) (c : Cursor) : Option Cursor :=
  match skipGaps c.rest with
  | [] => some { c with rest := [] }
  | 44 :: rest =>
    match skipGaps rest with
    | [] => none
    | rest => some { c with rest }
  | b :: rest =>
    if !c.begun then some { rest := b :: rest, begun := true }
    else if b == 43 || last then some { c with rest := b :: rest }
    else none

/-- A number of one octet.  A zero in front is a number of its own. -/
def octet (c : Cursor) : Option (Nat × Cursor) :=
  match c.rest with
  | 48 :: rest => some (0, { c with rest })
  | bs => (Decimal.scan Decimal.octet bs).map fun (n, rest) => (n, { c with rest })

/-- The octets of a quoted string and what follows its closing mark.  A mark behind an odd number of
backslashes does not close the string; `escaped` says whether the number so far is odd. -/
def closing (escaped : Bool) : Bytes → Option (Bytes × Bytes)
  | [] => none
  | b :: bs =>
    if b == Bytes.quote && !escaped then some ([], bs)
    else (closing (b == 92 && !escaped) bs).map fun (inner, rest) => (b :: inner, rest)

/-- A letter, reading the octet as the Latin-1 character of that number. -/
def isLetter (b : UInt8) : Bool :=
  (65 ≤ b && b ≤ 90) || (97 ≤ b && b ≤ 122) || b == 170 || b == 181 || b == 186
    || (192 ≤ b && b != 215 && b != 247)

/-- A letter, a number or white space, reading the octet as the Latin-1 character of that number. -/
def isPlain (b : UInt8) : Bool :=
  isLetter b || Bytes.isDigit b || b == 178 || b == 179 || b == 185 || (188 ≤ b && b ≤ 190)
    || (9 ≤ b && b ≤ 13) || b == 32 || b == 133 || b == 160

/-- A string of at most `capacity` octets: quoted, or bare from a letter to the end of the reply. -/
def string (capacity : Nat) (c : Cursor) : Option (String × Cursor) := do
  let (octets, rest) ← match c.rest with
    | [] => none
    | b :: bs =>
      if b == Bytes.quote then closing false bs
      else if isLetter b && bs.all isPlain then some (b :: bs, [])
      else none
  let text ← Bytes.text? octets
  if octets.length ≤ capacity then return (text, { c with rest }) else none

/-- A value that may be left out: it is when the reply ends here, or a comma or plus sign
follows. -/
def optional {α : Type} (value : Cursor → Option (α × Cursor)) (c : Cursor) :
    Option (Option α × Cursor) :=
  match c.rest with
  | [] | 44 :: _ | 43 :: _ => some (none, c)
  | _ => (value c).map fun (a, c) => (some a, c)

/-- Whether nothing but white space is left. -/
def atEnd (c : Cursor) : Bool := (skipGaps c.rest).isEmpty

/-- The only value of a reply. -/
def octet? (reply : Bytes) : Option Nat := do
  let (n, c) ← (← (← start? reply).approach true).octet
  if c.atEnd then some n else none

/-- The two values of a reply. -/
def octetPair? (reply : Bytes) : Option (Nat × Nat) := do
  let (m, c) ← (← (← start? reply).approach false).octet
  let (n, c) ← (← c.approach true).octet
  if c.atEnd then some (m, n) else none

example : octet? (Bytes.ofString "+CNMP: 13") = some 13 := by decide +kernel
example : octet? (Bytes.ofString "+CNMP: 01") = none := by decide +kernel
example : octetPair? (Bytes.ofString "+CNSMOD: 0,4") = some (0, 4) := by decide +kernel

end Cursor

end Cellular
