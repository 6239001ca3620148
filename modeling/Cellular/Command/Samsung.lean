import Cellular.Command.Basic
import Cellular.Reply.BandNames
import Cellular.Reply.Status
/-!
# Commands of Samsung modems
-/

namespace Cellular.Command

/-- `%IPDPCFG`: configure a context.  A user name turns authentication on. -/
def configureContext (cid : Nat) (user password : String) : Command Unit :=
  set "%IPDPCFG" [some (.number cid), some (.number 0),
    some (.number (if user.isEmpty then 0 else 1)), some (.quoted user),
    some (.quoted password)] 60000

/-- `%IPDPACT`: activate (1) or deactivate (0) a context.  The outcome is reported by an unsolicited
line of the same name, which may come before the reply. -/
def setContextActivation (cid state : Nat) : Command Unit :=
  set "%IPDPACT" [some (.number cid), some (.number state)] 60000

/-- `%IER?`: ask for the cause of the last failure. -/
def extendedError : Command Nat := query "%IER?" extendedError? 3000

/-- `%IPBM?`: ask for the enabled bands. -/
def bandMode : Command (List Band) := query "%IPBM?" enabledBands? 3000

end Cellular.Command
