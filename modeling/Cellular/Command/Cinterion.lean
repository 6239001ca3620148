import Cellular.Command.Basic
import Cellular.Reply.BandMask
import Cellular.Reply.Status
import Cellular.Radio.Lock
/-!
# Commands of Cinterion modules
-/

namespace Cellular.Command

/-- `^SMSO`: switch the module off.  `^SHUTDOWN` follows once it is ready for that. -/
def switchOff : Command Unit := plain "^SMSO" 5000

/-- `\Q3`: hardware flow control. -/
def hardwareFlowControl : Command Unit := plain "\\Q3" 3000

/-- `^SPIC`: ask for the attempts left at a code; `puk` asks for those of its unblocking code. -/
def pinCounter (facility : String) (puk : Option Nat) : Command Nat :=
  ⟨{ name := "^SPIC", arguments := [some (.quoted facility), puk.map .number], timeout := 3000 },
    pinCounter?⟩

/-- The counters of every lock, in the order they are read. -/
def pinCounters : List (Lock × Command Nat) :=
  [(.simPin, pinCounter "SC" none), (.simPuk, pinCounter "SC" (some 1)),
    (.simPin2, pinCounter "P2" none), (.simPuk2, pinCounter "P2" (some 1)),
    (.phFsimPin, pinCounter "PS" none), (.phFsimPuk, pinCounter "PS" (some 1)),
    (.phNetPin, pinCounter "PN" none), (.phNetPuk, pinCounter "PN" (some 1))]

/-- `^SIND`: switch the reports of an indicator off (0) or on (1), or only ask for its value (2). -/
def setIndicator (indicator : String) (mode : Nat) : Command IndicatorState :=
  ⟨{ name := "^SIND", arguments := [some (.quoted indicator), some (.number mode)],
      timeout := 3000 }, IndicatorState.read?⟩

/-- `^SCFG=?`: ask for the configuration that the module supports. -/
def testConfiguration : Command SupportedBands :=
  query "^SCFG=?" SupportedBands.read? 3000

/-- `^SCFG="Radio/Band"`: ask for the current bands. -/
def radioBand : Command (List Band) :=
  query "^SCFG=\"Radio/Band\"" currentBands? 3000

/-- `^SCFG="Radio/Band",<mask>,<commit>`: choose bands on a module with 3G. -/
def setRadioBand (mask commit : Nat) : Command Unit :=
  joined "^SCFG=\"Radio/Band\"," [some (.number mask), some (.number commit)] 15000

/-- `^SCFG="Radio/Band","<preferred>","<allowed>"`: choose bands on a module with 2G alone. -/
def setRadioBandQuoted (preferred allowed : String) : Command Unit :=
  joined "^SCFG=\"Radio/Band\"," [some (.quoted preferred), some (.quoted allowed)] 15000

/-- `^SMONG`: ask for the state of the GPRS cell. -/
def gprsMonitor : Command AccessTechnology := query "^SMONG" gprsMonitor? 3000

/-- `^SWWAN=?`: ask whether there are network connections over the net port. -/
def testWwan : Command Unit := query "^SWWAN=?" anything? 6000

end Cellular.Command
