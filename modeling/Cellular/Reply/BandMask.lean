import Cellular.Grammar.Listing
import Cellular.Grammar.RangeList
import Cellular.Error
/-!
# Band masks

Cinterion modules keep their band selection in one number, a bit for each band.  `bandBits` says
which; `bandsOfMask` lists the bands of a mask in the order of the table, and `bandMask?` goes the
other way for a request.  Modules that have 2G alone accept only a few masks.

The number stands in the `"Radio/Band"` line of a `^SCFG` listing.
-/

namespace Cellular

/-- The bit of each band. -/
def bandBits : List (Nat × Band) :=
  [(0, .egsm), (1, .dcs), (2, .pcs), (3, .g850), (4, .u2100), (5, .u1900), (6, .u850), (7, .u900),
    (8, .u800)]

/-- The only masks that a module with 2G alone accepts. -/
def validMasks2g : List Nat := [1, 2, 4, 8, 3, 5, 10, 12, 15]

/-- The bands whose bits are set. -/
def bandsOfMask (mask : Nat) : List Band :=
  (bandBits.filter fun e => mask.testBit e.1).map Prod.snd

/-- The mask with the bits of the bands in a list.  Bands without a bit leave no trace. -/
def maskOfBands (bands : List Band) : Nat :=
  (bandBits.filter fun e => bands.contains e.2).foldl (fun mask e => mask ||| 1 <<< e.1) 0

/-- The mask to write for a request.  Asking for any band selects every supported one. -/
def bandMask? (bands : List Band) (supported : Nat) (only2g : Bool) : Except Error Nat :=
  let mask :=
    if bands = [.any] then supported
    else if only2g && !validMasks2g.contains (maskOfBands bands) then 0
    else maskOfBands bands
  if mask = 0 then .error (.unsupported (.bands (bands.take Band.listCapacity))) else .ok mask

/-- What follows the name in the first `"Radio/Band"` line of a `^SCFG` listing. -/
def radioBandLine? (reply : Bytes) : Option Bytes :=
  (Scanner.lines reply).findSome? fun line => do
    let rest ← Scanner.tag (Bytes.ofString "^SCFG:") line
    let rest ← Bytes.dropTag? (Bytes.ofString "\"Radio/Band\"") rest
    Scanner.comma rest

/-- The bands a module supports, and the mask of all of them. -/
structure SupportedBands where
  bands : List Band
  mask : Nat
  deriving DecidableEq, Repr

/-- Reads `^SCFG: "Radio/Band",("1-511","0-1")`: the upper end of the first range is the mask of
every supported band. -/
def SupportedBands.read? (reply : Bytes) : Option SupportedBands := do
  let (first, _) ← Scanner.group (← radioBandLine? reply)
  let ((_, mask), _) ← Scanner.range first
  let bands := bandsOfMask mask
  if bands.isEmpty then none else some { bands, mask }

/-- Reads the bands of `^SCFG: "Radio/Band",<mask>[,...]`. -/
def currentBands? (reply : Bytes) : Option (List Band) := do
  let (mask, _) ← Scanner.number (← radioBandLine? reply)
  let bands := bandsOfMask mask
  if bands.isEmpty then none else some bands

end Cellular
