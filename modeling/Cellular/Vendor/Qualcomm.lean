import Cellular.Error
/-!
# Data endpoints of Qualcomm systems on chip

The data of such a modem runs over network interfaces, its control over RPMSG or QRTR ports.  Which
control port serves an interface depends on the kernel driver of the interface: `bam-dmux`
interfaces have a serial port by their number and take any RPMSG port; `ipa` interfaces belong to
the QRTR port they were created from, under a multiplexer id.
-/

namespace Cellular.Qualcomm

/-- What a control port is reached through. -/
inductive Transport where
  | rpmsg
  | qrtr
  deriving DecidableEq, Repr

/-- Data runs over network interfaces. -/
def dataOverNet : Bool := true

/-- Data does not run over serial ports. -/
def dataOverTty : Bool := false

/-- A control port. -/
structure ControlPort where
  name : String
  transport : Transport
  deriving DecidableEq, Repr

/-- A network interface as the kernel reports it. -/
structure NetPort where
  name : String
  driver : String
  number : Int
  deriving DecidableEq, Repr

/-- What an interface was created from. -/
structure NetLink where
  control : Option String := none
  muxId : Nat := 0
  deriving DecidableEq, Repr

/-- The serial side of an endpoint. -/
inductive SerialPort where
  | none
  | a2MuxRmnet (number : Nat)
  deriving DecidableEq, Repr

/-- The multiplexer of an endpoint. -/
inductive MuxId where
  | unbound
  | id (id : Nat)
  deriving DecidableEq, Repr

/-- The control port of a network interface, with the settings of the link. -/
structure Endpoint where
  control : ControlPort
  serial : SerialPort
  muxId : MuxId
  deriving DecidableEq, Repr

/-- How many multiplexed serial ports there are. -/
def muxPorts : Int := 8

/-- The endpoint of a network interface, given the control ports and what each interface was created
from. -/
def endpoint (net : NetPort) (ports : List ControlPort) (link : String → NetLink) :
    Except Error Endpoint :=
  let noControl : Except Error Endpoint := .error (.port (.noControlPort (Error.portName net.name)))
  if net.driver = "bam-dmux" then
    if 0 ≤ net.number ∧ net.number < muxPorts then
      match ports.find? (·.transport = .rpmsg) with
      | some port => .ok ⟨port, .a2MuxRmnet net.number.toNat, .unbound⟩
      | none => noControl
    else .error (.port (.noSerialPort (Error.portName net.name)))
  else if net.driver = "ipa" then
    match (link net.name).control.bind fun parent =>
        ports.find? fun p => p.transport = .qrtr ∧ p.name = parent with
    | some port => .ok ⟨port, .none, .id (link net.name).muxId⟩
    | none => noControl
  else .error (.port (.unsupportedDriver (Error.portName net.name) (Error.portName net.driver)))

end Cellular.Qualcomm
