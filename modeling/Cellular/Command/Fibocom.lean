import Cellular.Command.Basic
/-!
# Commands of Fibocom modems
-/

namespace Cellular.Command

/-- `+GTRNDIS=?`: ask whether there is an RNDIS or ECM network interface. -/
def testRndis : Command Unit := query "+GTRNDIS=?" anything? 6000

/-- `+CFUN=15`: reset the module. -/
def resetModule : Command Unit := plain "+CFUN=15" 3000

end Cellular.Command
