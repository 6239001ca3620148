import Cellular.Procedure.Operation
import Cellular.Command.Fibocom
import Cellular.Command.Standard
import Cellular.Vendor.BearerKind
import Cellular.Config
/-!
# Fibocom modems

Data goes over the network interface behind `+GTRNDIS` where there is one.  Some of these modems
need their radio off while the initial bearer is changed.
-/

namespace Cellular

/-- A Fibocom modem and what is known about it. -/
structure Fibocom where
  /-- Whether there is a port that can carry network traffic. -/
  hasNetPort : Bool
  /-- Whether the radio has to be off while the initial bearer is changed. -/
  radioOffForInitialBearer : Bool
  /-- Whether the modem has the network interface. -/
  rndis : Feature := .unknown
  deriving DecidableEq, Repr

namespace Fibocom

open Operation

/-- The modem of a configuration. -/
def ofConfig (config : Config) : Fibocom :=
  { hasNetPort := config.hasNetPort, radioOffForInitialBearer := config.radioOffForInitialBearer }

/-- The kind of bearer for a new connection. -/
def createBearer : Operation Fibocom BearerKind := do
  if !(← get).hasNetPort then
    modify fun m => { m with rndis := m.rndis.resolveWithoutPort }
  let rndis ← (← get).rndis.resolve (attempt .testRndis)
  modify fun m => { m with rndis }
  return rndis.bearerKind

/-- Reset the module. -/
def reset : Operation Fibocom Unit := send .resetModule

/-- Change the access point of the initial bearer. -/
def setInitialBearer (apn : String) : Operation Fibocom Unit := do
  if (← get).radioOffForInitialBearer then
    discard <| step false .fatal (.setFunctionality 4)
    parent (.setInitialBearer apn)
    discard <| step false .fatal (.setFunctionality 1)
  else
    parent (.setInitialBearer apn)

/-! ## Everything that the modem can be asked for -/

/-- Something that the modem can be asked for. -/
inductive Task where
  | createBearer
  | reset
  | setInitialBearer (apn : String)

/-- What a task gives. -/
inductive Value where
  | nothing
  | kind (kind : BearerKind)

/-- Do what the modem is asked for. -/
def perform : Task → Operation Fibocom Value
  | .createBearer => return .kind (← createBearer)
  | .reset => do reset; return .nothing
  | .setInitialBearer apn => do setInitialBearer apn; return .nothing

end Fibocom

end Cellular
