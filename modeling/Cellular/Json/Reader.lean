import Cellular.Json.Basic
/-!
# Reading JSON

`Json.read?` reads a text that is one JSON value and nothing else, white space around it apart.
Nothing beyond the grammar is accepted: no leading zeros, no control characters inside strings.
What the grammar does let pass is an escaped half of a surrogate pair without the other; a string
with such a half in it is no text and is read as `Json.unpaired`.

The containers that are open are kept on a stack of `Frame`s, so values may be nested as deep as the
text is long.  Every step reads at least one character, which bounds their number.
-/

namespace Cellular.Json

/-- White space between tokens. -/
def isSpacing (c : Char) : Bool := c = ' ' || c = '\t' || c = '\n' || c = '\r'

/-- Without the white space in front. -/
def skip (cs : List Char) : List Char := cs.dropWhile isSpacing

/-- What follows the characters of `word`, when the text begins with them. -/
def dropWord? : (word : List Char) → List Char → Option (List Char)
  | [], cs => some cs
  | _ :: _, [] => none
  | w :: word, c :: cs => if w = c then dropWord? word cs else none

/-! ## Strings -/

/-- The value of a hexadecimal digit. -/
def hexValue? (c : Char) : Option Nat :=
  if '0' ≤ c && c ≤ '9' then some (c.toNat - 48)
  else if 'a' ≤ c && c ≤ 'f' then some (c.toNat - 87)
  else if 'A' ≤ c && c ≤ 'F' then some (c.toNat - 55)
  else none

/-- The number of four hexadecimal digits. -/
def hex4? (a b c d : Char) : Option Nat := do
  return (((← hexValue? a) * 16 + (← hexValue? b)) * 16 + (← hexValue? c)) * 16 + (← hexValue? d)

/-- The character that a letter behind a backslash stands for. -/
def simpleEscape? : Char → Option Char
  | '"' => some '"'
  | '\\' => some '\\'
  | '/' => some '/'
  | 'b' => some '\x08'
  | 'f' => some '\x0c'
  | 'n' => some '\n'
  | 'r' => some '\r'
  | 't' => some '\t'
  | _ => none

/-- The code points in the rest of a string, its opening mark being read, and what follows its
closing mark.  Halves of surrogate pairs stay apart.  The points `before` are those read already,
the last first. -/
def points? (before : List Nat) : List Char → Option (List Nat × List Char)
  | [] => none
  | '"' :: cs => some (before.reverse, cs)
  | '\\' :: 'u' :: a :: b :: c :: d :: cs =>
    match hex4? a b c d with
    | some n => points? (n :: before) cs
    | none => none
  | '\\' :: e :: cs =>
    match simpleEscape? e with
    | some c => points? (c.toNat :: before) cs
    | none => none
  | c :: cs => if c.toNat < 32 || c = '\\' then none else points? (c.toNat :: before) cs

/-- The first half of a surrogate pair. -/
def isHighHalf (n : Nat) : Bool := 0xD800 ≤ n && n < 0xDC00

/-- The second half of a surrogate pair. -/
def isLowHalf (n : Nat) : Bool := 0xDC00 ≤ n && n < 0xE000

/-- The character that a surrogate pair stands for. -/
def pairChar (high low : Nat) : Char :=
  Char.ofNat (0x10000 + (high - 0xD800) * 1024 + (low - 0xDC00))

/-- The characters of code points, unless half of a surrogate pair stands alone among them.  The
characters `before` are those found already, the last first. -/
def chars? (before : List Char) : List Nat → Option (List Char)
  | [] => some before.reverse
  | [n] => if isHighHalf n || isLowHalf n then none else some (Char.ofNat n :: before).reverse
  | n :: m :: ns =>
    if isHighHalf n && isLowHalf m then chars? (pairChar n m :: before) ns
    else if isHighHalf n || isLowHalf n then none
    else chars? (Char.ofNat n :: before) (m :: ns)

/-- A string, its opening mark being read, and what follows it: its text, if it is one. -/
def string? (cs : List Char) : Option (Option String × List Char) :=
  (points? [] cs).map fun (ns, cs) => ((chars? [] ns).map String.ofList, cs)

/-! ## Numbers -/

/-- The number that decimal digits stand for. -/
def digitsValue (cs : List Char) : Nat := cs.foldl (fun n c => n * 10 + (c.toNat - 48)) 0

/-- The digits in front and what follows them. -/
def digits (cs : List Char) : List Char × List Char :=
  (cs.takeWhile Char.isDigit, cs.dropWhile Char.isDigit)

/-- The fraction of a number, if there is one: a point with digits behind it. -/
def fraction? (cs : List Char) : Option (List Char × List Char) :=
  match cs with
  | '.' :: rest =>
    let (ds, rest) := digits rest
    if ds.isEmpty then none else some ('.' :: ds, rest)
  | _ => some ([], cs)

/-- The exponent of a number, if there is one. -/
def exponent? (cs : List Char) : Option (List Char × List Char) :=
  match cs with
  | e :: rest =>
    if e = 'e' || e = 'E' then
      let sign := rest.takeWhile fun c => c = '+' || c = '-'
      let (ds, rest) := digits (rest.drop sign.length)
      if ds.isEmpty || sign.length > 1 then none else some (e :: sign ++ ds, rest)
    else some ([], cs)
  | [] => some ([], [])

/-- The integer that digits without leading zeros stand for.  It has to fit 64 bits, with a sign if
it is negative, and zero has no minus sign.  None of more than twenty digits fits. -/
def integer? (negative : Bool) (ds : List Char) : Option Int :=
  if 20 < ds.length then none
  else
    let n := digitsValue ds
    if negative then if n = 0 || 9223372036854775808 < n then none else some (-n)
    else if n < 18446744073709551616 then some n
    else none

/-- A number.  One that is written as an integer but is none of 64 bits gets a fraction of zero. -/
def number? (cs : List Char) : Option (Json × List Char) := do
  let negative : Bool := cs.head? = some '-'
  let (ds, rest) := digits (if negative then cs.drop 1 else cs)
  if ds.isEmpty || (ds.length > 1 && ds.head? = some '0') then none
  else
    let (fraction, rest) ← fraction? rest
    let (exponent, rest) ← exponent? rest
    let decimal (tail : List Char) : Json :=
      .decimal (String.ofList ((if negative then ['-'] else []) ++ ds ++ tail))
    if fraction.isEmpty && exponent.isEmpty then
      match integer? negative ds with
      | some n => return (.whole n, rest)
      | none => return (decimal ['.', '0'], rest)
    else return (decimal (fraction ++ exponent), rest)

/-! ## Values -/

/-- A string as a value. -/
def ofText : Option String → Json
  | some s => .string s
  | none => .unpaired

/-- An object with these members, if all their names are texts. -/
def ofMembers (members : List (Option String × Json)) : Json :=
  match members.mapM fun m => m.1.map fun name => (name, m.2) with
  | some members => .object members
  | none => .unpaired

/-- A container that is open, with what it holds so far, the last first. -/
inductive Frame where
  /-- An array with these items. -/
  | items (before : List Json)
  /-- An object with these members, and the name of the member that comes next. -/
  | members (before : List (Option String × Json)) (name : Option String)

/-- What has been read. -/
inductive Progress where
  /-- A value as a whole. -/
  | complete (value : Json)
  /-- A container up to a place where a value has to follow. -/
  | inside (frame : Frame)

/-- The name of a member with its colon, and what follows. -/
def name? (cs : List Char) : Option (Option String × List Char) :=
  match skip cs with
  | '"' :: cs =>
    match string? cs with
    | some (name, cs) =>
      match skip cs with
      | ':' :: cs => some (name, cs)
      | _ => none
    | none => none
  | _ => none

/-- The beginning of a value, as far as no other value is needed for it. -/
def begin? (cs : List Char) : Option (Progress × List Char) :=
  match skip cs with
  | '"' :: cs => (string? cs).map fun (s, cs) => (.complete (ofText s), cs)
  | '[' :: cs =>
    match skip cs with
    | ']' :: cs => some (.complete (.array []), cs)
    | cs => some (.inside (.items []), cs)
  | '\x7b' :: cs =>
    match skip cs with
    | '\x7d' :: cs => some (.complete (.object []), cs)
    | cs => (name? cs).map fun (name, cs) => (.inside (.members [] name), cs)
  | 't' :: cs => (dropWord? ['r', 'u', 'e'] cs).map (.complete (.bool true), ·)
  | 'f' :: cs => (dropWord? ['a', 'l', 's', 'e'] cs).map (.complete (.bool false), ·)
  | 'n' :: cs => (dropWord? ['u', 'l', 'l'] cs).map (.complete .null, ·)
  | cs => (number? cs).map fun (value, cs) => (.complete value, cs)

/-- Put a value into a container, and go on to the next one or close the container. -/
def Frame.proceed? (frame : Frame) (value : Json) (cs : List Char) :
    Option (Progress × List Char) :=
  match frame, skip cs with
  | .items before, ',' :: cs => some (.inside (.items (value :: before)), cs)
  | .items before, ']' :: cs => some (.complete (.array (value :: before).reverse), cs)
  | .members before name, ',' :: cs =>
    (name? cs).map fun (next, cs) => (.inside (.members ((name, value) :: before) next), cs)
  | .members before name, '\x7d' :: cs =>
    some (.complete (ofMembers ((name, value) :: before).reverse), cs)
  | _, _ => none

/-- Read on inside the containers that are open, the innermost first, until the outermost is
closed. -/
def readOn? : (fuel : Nat) → Progress → List Frame → List Char → Option (Json × List Char)
  | 0, _, _, _ => none
  | _ + 1, .complete value, [], cs => some (value, cs)
  | fuel + 1, .complete value, frame :: frames, cs =>
    match frame.proceed? value cs with
    | some (progress, cs) => readOn? fuel progress frames cs
    | none => none
  | fuel + 1, .inside frame, frames, cs =>
    match begin? cs with
    | some (progress, cs) => readOn? fuel progress (frame :: frames) cs
    | none => none

/-- A value and what follows it. -/
def value? (cs : List Char) : Option (Json × List Char) :=
  match begin? cs with
  | some (progress, rest) => readOn? (cs.length + 1) progress [] rest
  | none => none

/-- The value that a text is, white space around it apart. -/
def read? (s : String) : Option Json :=
  match value? s.toList with
  | some (value, rest) => if (skip rest).isEmpty then some value else none
  | none => none

end Cellular.Json
