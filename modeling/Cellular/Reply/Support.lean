import Cellular.Grammar.RangeList
/-!
# What a modem accepts

Replies to test commands: the functionality levels of `+CFUN=?` and, parameter by parameter, the
settings of `+CNMI=?`.  Each list holds at most sixteen values.  Two replies carry nothing: an empty
one, and one whose arrival is all that matters.
-/

namespace Cellular

/-- How many values the list of one parameter holds. -/
def supportCapacity : Nat := 16

/-- A list of values that fills its whole input or leaves something unread behind it. -/
def supportList? (bs : Bytes) : Option (List Nat) :=
  Scanner.item? (Scanner.rangeList supportCapacity) bs

/-- The functionality levels of `+CFUN: (0,1,4),...`: those of the first group. -/
def functionalityLevels? (reply : Bytes) : Option (List Nat) := do
  let rest ← Scanner.tag (Bytes.ofString "+CFUN:") reply
  let (first, _) ← Scanner.group rest
  supportList? first

/-- The values that each field of `+CNMI` may have. -/
structure MessageIndicationSupport where
  /-- How indications are buffered. -/
  mode : List Nat := []
  /-- Delivery of messages. -/
  mt : List Nat := []
  /-- Delivery of broadcasts. -/
  bm : List Nat := []
  /-- Delivery of status reports. -/
  ds : List Nat := []
  /-- What happens to buffered indications; some firmwares do not list it. -/
  bfr : List Nat := []
  deriving DecidableEq, Repr

/-- Reads `+CNMI: (0,1,2),(0,1),(0,2),(0)[,(1)]`. -/
def MessageIndicationSupport.read? (reply : Bytes) : Option MessageIndicationSupport := do
  let rest ← Scanner.tag (Bytes.ofString "+CNMI:") reply
  let (groups, _) ← Scanner.groups 5 rest
  match groups with
  | [mode, mt, bm, ds] =>
    return { mode := ← supportList? mode, mt := ← supportList? mt, bm := ← supportList? bm,
             ds := ← supportList? ds }
  | [mode, mt, bm, ds, bfr] =>
    return { mode := ← supportList? mode, mt := ← supportList? mt, bm := ← supportList? bm,
             ds := ← supportList? ds, bfr := ← supportList? bfr }
  | _ => none

/-- Accepts the reply that has nothing in it. -/
def empty? (reply : Bytes) : Option Unit :=
  if (Bytes.trim reply).isEmpty then some () else none

/-- Accepts any reply. -/
def anything? (_reply : Bytes) : Option Unit := some ()

end Cellular
