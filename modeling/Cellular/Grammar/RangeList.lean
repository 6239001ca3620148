import Cellular.Grammar.Scanner
/-!
# Lists of values and ranges, and groups

The reply to a test command lists what each parameter accepts, one parenthesised group per
parameter: `(0-2),(0,1),(0,"2-4")`.  A group holds numbers and ranges of numbers.  Quotation marks
stand around single items.  Lists are expanded into their members, so a list is refused when it has
more members than there is room for, and also when a range in it ends below its start.
-/

namespace Cellular.Scanner

/-- `a-b`, or `a` for the range of one number. -/
def bareRange : Scanner (Nat × Nat) := fun bs => do
  let (a, rest) ← Decimal.scan Decimal.word32 bs
  match (octet 45 rest).bind (Decimal.scan Decimal.word32) with
  | some (b, rest) => return ((a, b), rest)
  | none => return ((a, a), rest)

/-- A number or range, quoted or bare. -/
def range : Scanner (Nat × Nat) := fun bs =>
  let bs := skipPads bs
  inQuotes bareRange bs <|> bareRange bs

/-- The items of a list, at most `capacity` of them, not expanded. -/
def ranges : (capacity : Nat) → Scanner (List (Nat × Nat))
  | 0, _ => none
  | capacity + 1, bs => do
    let (first, rest) ← range bs
    match comma rest with
    | none => some ([first], rest)
    | some rest => (ranges capacity rest).map fun (more, rest) => (first :: more, rest)

/-- How many members an item has. -/
def rangeSize (r : Nat × Nat) : Nat := r.2 + 1 - r.1

/-- The members of an item, in order. -/
def rangeMembers (r : Nat × Nat) : List Nat := List.range' r.1 (rangeSize r)

/-- The members of a list of items, at most `capacity` of them.  Every item has a member, so a list
with more items than room is refused before it is expanded. -/
def rangeList (capacity : Nat) : Scanner (List Nat) := fun bs => do
  let (items, rest) ← ranges capacity bs
  if items.all (fun r => r.1 ≤ r.2) && (items.map rangeSize).foldl (· + ·) 0 ≤ capacity then
    return (items.flatMap rangeMembers, rest)
  else none

/-- What stands between a parenthesis and the next closing one. -/
def group : Scanner Bytes := fun bs => do
  let rest ← octet 40 (skipPads bs)
  let inner := rest.takeWhile (· != 41)
  let rest ← octet 41 (rest.dropWhile (· != 41))
  return (inner, rest)

/-- The contents of groups with commas between them, at most `capacity` of them. -/
def groups : (capacity : Nat) → Scanner (List Bytes)
  | 0, _ => none
  | capacity + 1, bs => do
    let (first, rest) ← group bs
    match comma rest with
    | none => some ([first], rest)
    | some rest => (groups capacity rest).map fun (more, rest) => (first :: more, rest)

example : item? (rangeList 16) (Bytes.ofString "1, \"4-5\" ,9") = some [1, 4, 5, 9] := by
  decide +kernel
example : item? (rangeList 4) (Bytes.ofString "0-4294967295") = none := by decide +kernel
example : item? (rangeList 4) (Bytes.ofString "3-1") = none := by decide +kernel

end Cellular.Scanner
