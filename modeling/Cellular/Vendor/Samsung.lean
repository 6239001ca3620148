import Cellular.Procedure.Operation
import Cellular.Command.Samsung
import Cellular.Config
/-!
# Samsung modems

Packet data contexts are configured and activated by commands of the vendor's own.  The outcome of
an activation is an unsolicited `%IPDPACT` report, which may overtake the reply to the command.
-/

namespace Cellular.Samsung

open Operation

/-- The bands that the modem has: all those with a name. -/
def supportedBands : List Band := bandNames.map Prod.fst

/-- Load the enabled bands. -/
def loadCurrentBands {σ : Type} : Operation σ (List Band) := send .bandMode

/-- A bearer over one context. -/
structure Bearer where
  /-- The context that the bearer is for. -/
  profile : Nat
  /-- The context that is connected, 0 for none. -/
  cid : Nat := 0
  /-- The user name of the access point. -/
  user : String
  /-- The password of the access point. -/
  password : String
  /-- How long the report on an activation may take. -/
  completion : Nat
  deriving DecidableEq, Repr

namespace Bearer

/-- The bearer of a context and configuration. -/
def ofConfig (profile : Nat) (config : Config) : Bearer :=
  { profile, user := config.user, password := config.password,
    completion := config.timing.dialCompletion }

/-- Whether a code reports one of some states of a context. -/
def reports (cid : Nat) (states : List ContextState) : Urc → Bool
  | .context reported state => reported = cid && states.contains state
  | _ => false

/-- Whether a code says that activation failed. -/
def isFailure : Urc → Bool
  | .context _ state => state = .activationFailed
  | _ => false

/-- What a failed activation means, given the answer about its cause. -/
def failureOf : Except Error (Option Nat) → EquipmentError
  | .ok (some cause) => activationError cause
  | _ => .callSetupFailed

/-- Configure and activate the context, and wait for the report on it. -/
def activate : Operation Bearer Urc := do
  let b ← get
  withSeat fun ticket => do
    discard <| step true .fatal (.configureContext b.profile b.user b.password)
    -- Fails where the context is not active, which is as it should be.
    discard <| step true .soft (.setContextActivation b.profile 0)
    checkToken
    let (_, report) ← join (.setContextActivation b.profile 1) .fatal ticket
      (reports b.profile [.activated, .activationFailed])
      ⟨.failFast, b.completion, "Timed out waiting for connection to complete"⟩
    return report

/-- Bring the context up: its number. -/
def dial : Operation Bearer Nat := do
  let report ← activate
  if isFailure report then
    let cause ← catching (step true .fatal .extendedError)
    throw (.equipment (failureOf cause))
  modify fun b => { b with cid := b.profile }
  return (← get).cid

/-- Bring the connected context down, and wait for the report on it. -/
def disconnect : Operation Bearer Unit := do
  let b ← get
  withSeat fun ticket =>
    discard <| join (.setContextActivation b.cid 0) .soft ticket (reports b.cid [.deactivated])
      ⟨.awaitNotification, b.completion, "Timed out waiting for disconnection to complete"⟩
  modify fun b => { b with cid := 0 }

end Bearer

end Cellular.Samsung
