import Cellular.Grammar.Listing
import Cellular.Radio.Technology
import Cellular.Error
/-!
# Status replies

Replies that report one thing: attempts left at a code, an indicator, the state of the GPRS cell,
the cause of a failure.
-/

namespace Cellular

/-- Reads `^SPIC: <counter>`. -/
def pinCounter? (reply : Bytes) : Option Nat :=
  (Scanner.tag (Bytes.ofString "^SPIC:") reply).bind (Scanner.item? Scanner.number)

/-- The state of an indicator. -/
structure IndicatorState where
  /-- The name of the indicator. -/
  description : String
  /-- Whether changes are reported. -/
  mode : Nat
  /-- The value now. -/
  value : Nat
  deriving DecidableEq, Repr

/-- How many octets the name of an indicator may have. -/
def indicatorCapacity : Nat := 16

/-- The description, mode and value of a line `^SIND: <description>,<mode>,<value>`. -/
def indicatorLine? (line : Bytes) : Option (Bytes × Nat × Nat) := do
  let rest ← Scanner.tag (Bytes.ofString "^SIND:") line
  let (description, rest) ← Scanner.field rest
  let (mode, rest) ← Scanner.number (← Scanner.comma rest)
  let (value, _) ← Scanner.number (← Scanner.comma rest)
  return (description, mode, value)

/-- Reads the first indicator line of a reply. -/
def IndicatorState.read? (reply : Bytes) : Option IndicatorState := do
  let (description, mode, value) ← (Scanner.lines reply).findSome? indicatorLine?
  let description ← Scanner.clippedText? indicatorCapacity (← Scanner.text? description)
  return { description, mode, value }

/-- The access technology of a `psinfo` value. -/
def technologyOfPsinfo : Nat → AccessTechnology
  | 1 | 2 => .gprs
  | 3 | 4 => .edge
  | 5 | 6 => .umts
  | 7 | 8 => .hsdpa
  | 9 | 10 => .hsdpa ||| .hsupa
  | 16 | 17 => .lte
  | _ => .unknown

/-- The access technology of a GPRS status, for the statuses there are. -/
def technologyOfGprsStatus? : Nat → Option AccessTechnology
  | 0 => some .unknown
  | 1 | 2 => some .gprs
  | 3 | 4 => some .edge
  | _ => none

/-- Whether a line is the header of the table that `^SMONG` shows. -/
def isMonitorHeader (line : Bytes) : Bool :=
  (Scanner.text? line).any fun cs => "BCCH".toList.isPrefixOf cs

/-- Reads the GPRS status: the second column of the row below the header. -/
def gprsMonitor? (reply : Bytes) : Option AccessTechnology := do
  let row ← (((Scanner.lines reply).dropWhile (!isMonitorHeader ·)).drop 1).head?
  let status ← (Text.words (← Scanner.text? row))[1]?
  technologyOfGprsStatus? (← Decimal.whole? Decimal.word32 (Bytes.ofChars status))

/-- Reads the cause of `%IER: <x>,<y>,<cause>`. -/
def extendedError? (reply : Bytes) : Option Nat := do
  let fields ← Scanner.taggedFields? (Bytes.ofString "%IER:") 4 reply
  Scanner.item? Scanner.number (← fields[2]?)

/-- What the cause of a failed activation means. -/
def activationError : Nat → EquipmentError
  | 27 | 33 => .missingOrUnknownApn
  | _ => .callSetupFailed

/-- The access technology of a `+CNSMOD` value. -/
def technologyOfSystemMode : Nat → AccessTechnology
  | 1 => .gsm
  | 2 => .gprs
  | 3 => .edge
  | 4 => .umts
  | 5 => .hsdpa
  | 6 => .hsupa
  | 7 => .hspa
  | _ => .unknown

end Cellular
