import Cellular.Grammar.Listing
import Cellular.Radio.Band
/-!
# Band names

Samsung modems list their bands by name, one line each: `"EGSM": 1` for an enabled one.  Names
outside the table, `ANY` among them, are passed over; an enabled name that is no text spoils the
reply.
-/

namespace Cellular

/-- The names of the bands in a `%IPBM` listing. -/
def bandNames : List (Band × String) :=
  [(.u2100, "FDD_BAND_I"), (.u1900, "FDD_BAND_II"), (.u1800, "FDD_BAND_III"),
    (.u17iv, "FDD_BAND_IV"), (.u850, "FDD_BAND_V"), (.u800, "FDD_BAND_VI"),
    (.u900, "FDD_BAND_VIII"), (.g850, "G850"), (.dcs, "DCS"), (.egsm, "EGSM"), (.pcs, "PCS")]

/-- The band of a name in a listing. -/
def bandOfListedName? (name : List Char) : Option Band :=
  (bandNames.find? (·.2.toList = name)).map Prod.fst

/-- What a line enables: nothing, or a band. -/
def enabledBand? (line : Bytes) : Option (Option Band) :=
  match Scanner.item? Scanner.namedValue line with
  | some (name, 1) => (Scanner.text? name).map bandOfListedName?
  | _ => some none

/-- Reads the enabled bands, one for each line that enables one, while there is room. -/
def enabledBands? (reply : Bytes) : Option (List Band) :=
  ((Scanner.lines reply).mapM enabledBand?).map fun found =>
    (found.filterMap id).take Band.listCapacity

end Cellular
