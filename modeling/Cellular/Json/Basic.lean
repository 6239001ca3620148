/-!
# JSON values

The values of RFC 8259 as they are written: the members of an object keep their order and a name may
occur more than once, and a number written as an integer is told apart from one with a fraction or
an exponent.  Readers of configuration depend on both.  A value that is grammatical but no text, for
the sake of half a surrogate pair, still is a value that may be passed over.  `Json.text` writes a
value without spacing.
-/

namespace Cellular

/-- A JSON value. -/
inductive Json where
  | null
  | bool (b : Bool)
  | whole (n : Int)
  | decimal (text : String)
  | string (s : String)
  | unpaired
  | array (items : List Json)
  | object (members : List (String × Json))
  deriving Repr, Inhabited

namespace Json

/-- A natural number as a value. -/
def nat (n : Nat) : Json := .whole n

/-- The value of the member of that name, when there is exactly one. -/
def only? (members : List (String × Json)) (name : String) : Option Json :=
  match members.filter fun m => m.1 = name with
  | [m] => some m.2
  | _ => none

/-- The hexadecimal digit of a number below sixteen. -/
def hexDigit (n : Nat) : Char := if n < 10 then Char.ofNat (48 + n) else Char.ofNat (87 + n)

/-- A character inside a written string.  Quotation marks, backslashes and control characters are
escaped, all else stands for itself. -/
def escaped (c : Char) : List Char :=
  if c = '"' then ['\\', '"']
  else if c = '\\' then ['\\', '\\']
  else if c = '\n' then ['\\', 'n']
  else if c = '\r' then ['\\', 'r']
  else if c = '\t' then ['\\', 't']
  else if c.toNat < 32 then ['\\', 'u', '0', '0', hexDigit (c.toNat / 16), hexDigit (c.toNat % 16)]
  else [c]

/-- A string as it is written. -/
def quote (s : String) : String := String.ofList ('"' :: s.toList.flatMap escaped ++ ['"'])

mutual

/-- The text `out` with a value behind it, written without spacing.  What is unpaired has no text
and is written as null. -/
def writeOn (out : String) : Json → String
  | .null | .unpaired => out ++ "null"
  | .bool true => out ++ "true"
  | .bool false => out ++ "false"
  | .whole n => out ++ toString n
  | .decimal s => out ++ s
  | .string s => out ++ quote s
  | .array items => writeItems (out ++ "[") items ++ "]"
  | .object members => writeMembers (out ++ "\x7b") members ++ "\x7d"

/-- The text `out` with the items of an array behind it, commas between them. -/
def writeItems (out : String) : List Json → String
  | [] => out
  | [item] => writeOn out item
  | item :: items => writeItems (writeOn out item ++ ",") items

/-- The text `out` with the members of an object behind it, commas between them. -/
def writeMembers (out : String) : List (String × Json) → String
  | [] => out
  | [(name, value)] => writeOn (out ++ quote name ++ ":") value
  | (name, value) :: members =>
    writeMembers (writeOn (out ++ quote name ++ ":") value ++ ",") members

end

/-- A value as it is written, without spacing. -/
def text (j : Json) : String := writeOn "" j

end Json

end Cellular
