import Cellular.Grammar.Field
/-!
# Listings

Some replies run over several lines.  `lines` are those with something on them; in a listing of
settings each line has the form `"NAME": value`.
-/

namespace Cellular.Scanner

/-- The stretches between line breaks, empty ones included. -/
def stretches : Bytes → List Bytes
  | [] => [[]]
  | b :: bs =>
    if Bytes.isLineBreak b then [] :: stretches bs
    else match stretches bs with
      | [] => [[b]]
      | l :: ls => (b :: l) :: ls

/-- The lines that hold more than ASCII white space. -/
def lines (bs : Bytes) : List Bytes :=
  (stretches bs).filter fun line => line.any (!Bytes.isSpace ·)

/-- The name and value of a line `"NAME": value`. -/
def namedValue : Scanner (Bytes × Nat) := fun bs => do
  let (name, rest) ← quoted (skipPads bs)
  let rest ← octet 58 (skipPads rest)
  let (value, rest) ← number rest
  return ((name, value), rest)

example :
    lines (Bytes.ofString "\r\n\"ANY\": 1\r\n \t\r\nx") = [Bytes.ofString "\"ANY\": 1", [120]] := by
  decide +kernel
example : item? namedValue (Bytes.ofString "\"EGSM\": 0") = some (Bytes.ofString "EGSM", 0) := by
  decide +kernel

end Cellular.Scanner
