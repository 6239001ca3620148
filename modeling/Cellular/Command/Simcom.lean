import Cellular.Command.Basic
import Cellular.Grammar.Positional
/-!
# Commands of SIMCom modems
-/

namespace Cellular.Command

/-- `+CNMP`: choose between automatic mode (2), GSM (13) and WCDMA (14). -/
def setModePreference (mode : Nat) : Command Unit := set "+CNMP" [some (.number mode)] 3000

/-- `+CNAOP`: choose in which order networks are tried. -/
def setAcquisitionOrder (order : Nat) : Command Unit := set "+CNAOP" [some (.number order)] 3000

/-- `+CNMP?`: ask for the mode. -/
def modePreference : Command Nat := query "+CNMP?" Cursor.octet? 3000

/-- `+CNAOP?`: ask for the order. -/
def acquisitionOrder : Command Nat := query "+CNAOP?" Cursor.octet? 3000

/-- `+CNSMOD?`: ask whether the system mode is reported, and what it is. -/
def systemMode : Command (Nat × Nat) := query "+CNSMOD?" Cursor.octetPair? 3000

/-- `+CNSMOD`: switch the reports of the system mode. -/
def reportSystemMode (enable : Nat) : Command Unit := set "+CNSMOD" [some (.number enable)] 5000

/-- `+AUTOCSQ`: switch the reports of the signal quality; mode 1 reports every change. -/
def reportSignalQuality (auto : Nat) (mode : Option Nat) : Command Unit :=
  set "+AUTOCSQ" [some (.number auto), mode.map .number] 5000

end Cellular.Command
