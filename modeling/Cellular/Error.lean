import Cellular.Radio.Mode
import Cellular.Radio.Band
import Cellular.Registration
import Cellular.Text.Bytes
/-!
# Errors

What can go wrong, as causes.  A `LinkError` is what the command line itself reports about one
command; every operation ends in an `Error`.  `Error.message` is the one place where wording lives.

Two texts come from outside and are kept in a bounded number of octets: the text of a rejection in
64, the names of ports and drivers in 16.  `clip` keeps the whole characters that fit.
-/

namespace Cellular

/-- How a command can fail on the line, before any meaning is read into a reply. -/
inductive LinkError where
  | read
  | write
  | timeout
  | invalidResponse
  | aborted
  | parse
  | error
  | custom
  | noCarrier
  | equipment (code : Nat)
  | messaging (code : Nat)
  deriving DecidableEq, Repr

/-- The equipment errors that have a name of their own. -/
def LinkError.equipmentName : Nat → String
  | 3 => "NotAllowed"
  | 10 => "SimNotInserted"
  | 30 => "NoNetwork"
  | _ => "Unknown"

/-- The error in words. -/
def LinkError.name : LinkError → String
  | .read => "Read"
  | .write => "Write"
  | .timeout => "Timeout"
  | .invalidResponse => "InvalidResponse"
  | .aborted => "Aborted"
  | .parse => "Parse"
  | .error => "Error"
  | .custom => "Custom"
  | .noCarrier => "ConnectionError(NoCarrier)"
  | .equipment code => "CmeError(" ++ equipmentName code ++ ")"
  | .messaging _ => "CmsError(Unknown)"

/-- A failure of the mobile equipment that has a meaning of its own. -/
inductive EquipmentError where
  | missingOrUnknownApn
  | callSetupFailed
  | simNotReady
  deriving DecidableEq, Repr

/-- The failure in words. -/
def EquipmentError.message : EquipmentError → String
  | .missingOrUnknownApn => "Missing or unknown APN"
  | .callSetupFailed => "Call setup failed"
  | .simNotReady => "SIM not ready"

/-- A request that a vendor's commands cannot express. -/
inductive Unsupported where
  | modes (requested : ModeCombination)
  | bands (requested : List Band)
  | messageSetting (field : String) (preference : List Nat)
  | operation (message : String)
  deriving DecidableEq, Repr

/-- Why a network interface leads to no control port. -/
inductive PortError where
  | noSerialPort (port : String)
  | noControlPort (port : String)
  | unsupportedDriver (port driver : String)
  deriving DecidableEq, Repr

/-- Why a channel of unsolicited codes takes no further party: the seats of that kind are all
taken. -/
inductive BoardError where
  | subscribers
  | publishers
  deriving DecidableEq, Repr

/-- Why an operation failed.  What was `rejected` the modem answered with an error; what `failed` it
answered without what the operation needs. -/
inductive Error where
  | transport (cause : LinkError)
  | timeout
  | rejected (text : String)
  | equipment (cause : EquipmentError)
  | unsupported (what : Unsupported)
  | operationTimeout (message : String)
  | cancelled
  | inProgress (message : String)
  | failed (message : String)
  | forbidden (domain : Domain) (reason : ForbiddenReason)
  | parse (message : String)
  | overflow
  | subscriberOverflow (cause : BoardError)
  | port (cause : PortError)
  deriving DecidableEq, Repr

/-- The characters in front that fit in `room` octets: taking stops at the first that does not. -/
def clipChars : (room : Nat) → List Char → List Char
  | _, [] => []
  | room, c :: cs =>
    if c.utf8Size ≤ room then c :: clipChars (room - c.utf8Size) cs else []

/-- The characters in front of a string that fit in `room` octets. -/
def clip (room : Nat) (s : String) : String := String.ofList (clipChars room s.toList)

namespace Error

/-- The rejection with a text, kept in 64 octets. -/
def rejection (text : String) : Error := .rejected (clip 64 text)

/-- The name of a port or driver, kept in 16 octets. -/
def portName (name : String) : String := clip 16 name

/-- What a failure on the line means for the operation. -/
def ofLink : LinkError → Error
  | .timeout => .timeout
  | .error => rejection "ERROR"
  | .parse => .parse "Couldn't parse modem reply"
  | e => .transport e

/-- Whether it is the failure of a command, which a step may be told to put up with. -/
def isCommandFailure : Error → Bool
  | .transport _ | .timeout | .rejected _ => true
  | _ => false

/-- A list of numbers in brackets. -/
def bracketed (ns : List Nat) : String := "[" ++ ", ".intercalate (ns.map Nat.repr) ++ "]"

/-- The error in words. -/
def message : Error → String
  | .transport e => "Command channel failure: " ++ e.name
  | .timeout => "Command timed out"
  | .rejected text => "Modem rejected command: '" ++ text ++ "'"
  | .equipment e => e.message
  | .unsupported (.modes m) =>
    "Requested mode (allowed: '" ++ m.allowed.describe ++ "', preferred: '" ++ m.preferred.describe
      ++ "') not supported by the modem."
  | .unsupported (.bands bands) =>
    "The given band combination is not supported: '" ++
      ", ".intercalate (bands.map Band.name) ++ "'"
  | .unsupported (.messageSetting field preference) =>
    "SMS settings don't accept " ++ bracketed preference ++ " <" ++ field ++ ">"
  | .unsupported (.operation text) => text
  | .operationTimeout text => text
  | .cancelled => "Operation cancelled"
  | .inProgress text => text
  | .failed text => text
  | .forbidden domain reason =>
    "Not allowed to connect bearer in " ++ domain.name ++ " network: '" ++ reason.name ++ "'"
  | .parse text => text
  | .overflow => "Command or response exceeds buffer capacity"
  | .subscriberOverflow _ => "No free unsolicited message subscriber"
  | .port (.noSerialPort net) => "Couldn't find SIO port number for 'net/" ++ net ++ "'"
  | .port (.noControlPort net) => "Couldn't find any QMI port for 'net/" ++ net ++ "'"
  | .port (.unsupportedDriver net driver) =>
    "Unsupported QMI kernel driver for 'net/" ++ net ++ "': " ++ driver

end Error

end Cellular
