import Cellular.Grammar.Field
import Cellular.Reply.Registration
import Cellular.Reply.Status
import Cellular.Registration
/-!
# Unsolicited result codes

Lines that a modem sends of its own accord.  `Urc.read?` tells which code a line is.  Context
reports and indicator events are tried first, with spacing allowed around the tag; the rest must
carry the exact name before the first colon.
-/

namespace Cellular

/-- The state of a packet data context. -/
inductive ContextState where
  /-- Not active. -/
  | deactivated
  /-- Active. -/
  | activated
  /-- On the way up. -/
  | activating
  /-- Activation failed. -/
  | activationFailed
  /-- A state outside the standard range. -/
  | unknown (code : Nat)
  deriving DecidableEq, Repr

/-- The state of a reported code. -/
def ContextState.ofCode : Nat → ContextState
  | 0 => deactivated
  | 1 => activated
  | 2 => activating
  | 3 => activationFailed
  | n => unknown n

/-- An unsolicited result code. -/
inductive Urc where
  | network (status : RegistrationStatus)
  | gprs (status : RegistrationStatus)
  | eps (status : RegistrationStatus)
  | context (cid : Nat) (state : ContextState)
  | shutdown
  | indicator (name : String) (value : Nat)
  | systemMode (stat : Nat)
  deriving DecidableEq, Repr

namespace Urc

/-- The status that a registration code of any kind carries. -/
def registration? : Urc → Option RegistrationStatus
  | network s | gprs s | eps s => some s
  | _ => none

/-- Reads `%IPDPACT: <cid>,<status>[,<x>]`. -/
def contextLine? (line : Bytes) : Option Urc := do
  let fields ← Scanner.taggedFields? (Bytes.ofString "%IPDPACT:") 3 line
  let cid ← Scanner.item? Scanner.number (← fields[0]?)
  let status ← Scanner.item? Scanner.number (← fields[1]?)
  return context cid (ContextState.ofCode status)

/-- Reads `+CIEV: <indicator>,<value>`. -/
def indicatorLine? (line : Bytes) : Option Urc := do
  let fields ← Scanner.taggedFields? (Bytes.ofString "+CIEV:") 2 line
  let name ← Scanner.clippedText? indicatorCapacity (← Scanner.text? (← fields[0]?))
  let value ← Scanner.item? Scanner.number (← fields[1]?)
  return indicator name value

/-- The name of a code: what stands before the first colon. -/
def codeName (line : Bytes) : Bytes := line.takeWhile (· != 58)

/-- The status of a line that is a registration report. -/
def reportStatus? (line : Bytes) : Option RegistrationStatus :=
  (RegistrationReport.read? line).map fun r => RegistrationStatus.ofCode r.stat

/-- Reads a line whose name is exactly that of a code. -/
def namedLine? (line : Bytes) : Option Urc :=
  let name := codeName line
  if name = Bytes.ofString "+CREG" then (reportStatus? line).map network
  else if name = Bytes.ofString "+CGREG" then (reportStatus? line).map gprs
  else if name = Bytes.ofString "+CEREG" then (reportStatus? line).map eps
  else if name = Bytes.ofString "+CNSMOD" then (Cursor.octet? line).map systemMode
  else if name = Bytes.ofString "^SHUTDOWN" then some shutdown
  else none

/-- The code that a line is, if it is one. -/
def read? (line : Bytes) : Option Urc :=
  contextLine? line <|> indicatorLine? line <|> namedLine? line

example : read? (Bytes.ofString "%IPDPACT: 1,3,0") = some (context 1 .activationFailed) := by
  decide +kernel
example : read? (Bytes.ofString "+CREG: 5,\"00C3\",\"0000A13F\",7") = some (network .roaming) := by
  decide +kernel

end Urc

end Cellular
