import Cellular.Procedure.Operation
import Cellular.Command.Simcom
import Cellular.Reply.Status
/-!
# SIMCom modems

Modes are chosen through the `+CNMP` preference and the `+CNAOP` order in which networks are tried.
The access technology is what `+CNSMOD` reports.
-/

namespace Cellular

/-- A SIMCom modem. -/
structure Simcom where
  /-- The access technology as last reported. -/
  technology : AccessTechnology := .unknown
  deriving DecidableEq, Repr

namespace Simcom

open Operation

/-- 2G and 3G. -/
def g2g3 : Modes := .g2 ||| .g3

/-- The combinations of modes that the modem has. -/
def combinations : List ModeCombination :=
  [.only .g2, .only .g3, .only g2g3, ⟨g2g3, .g2⟩, ⟨g2g3, .g3⟩]

/-- Load the combinations of modes that both this modem and the generic one have. -/
def loadSupportedModes : Operation Simcom (List ModeCombination) := do
  return ModeCombination.filterSupported (← parentModes) combinations

/-- The modes that a preference and an order stand for. -/
def modesOf (preference order : Nat) : Except Error ModeCombination :=
  match preference, order with
  | 2, 0 => .ok (.only .any)
  | 2, 1 => .ok ⟨g2g3, .g2⟩
  | 2, 2 => .ok ⟨g2g3, .g3⟩
  | 2, _ => .error (.parse "Unknown acquisition order preference")
  | 13, _ => .ok (.only .g2)
  | 14, _ => .ok (.only .g3)
  | _, _ => .error (.parse "Unknown mode preference")

/-- Load the current modes. -/
def loadCurrentModes : Operation Simcom ModeCombination := do
  let order ← send .acquisitionOrder
  let preference ← send .modePreference
  liftExcept (modesOf preference order)

/-- The preference and the order that stand for modes. -/
def settingsOf (mode : ModeCombination) : Except Error (Nat × Nat) :=
  if mode = .only .any then .ok (2, 0)
  else if mode = .only .g2 then .ok (13, 0)
  else if mode = .only .g3 then .ok (14, 0)
  else if mode = ⟨g2g3, .g2⟩ then .ok (2, 3)
  else if mode = ⟨g2g3, .g3⟩ then .ok (2, 2)
  else if mode = .only g2g3 then .ok (2, 0)
  else .error (.unsupported (.modes mode))

/-- Choose modes.  Those that no settings stand for fail before anything is sent. -/
def setCurrentModes (mode : ModeCombination) : Operation Simcom Unit := do
  let (preference, order) ← liftExcept (settingsOf mode)
  discard <| step false .fatal (.setModePreference preference)
  discard <| step false .fatal (.setAcquisitionOrder order)

/-- Load the access technology. -/
def loadTechnology : Operation Simcom AccessTechnology := do
  let (_, stat) ← send .systemMode
  modify fun m => { m with technology := technologyOfSystemMode stat }
  return (← get).technology

/-- Report events: those of the generic modem first. -/
def enableEvents : Operation Simcom Unit := do
  parent .enableEvents
  discard <| step false .soft (.reportSystemMode 1)
  discard <| step false .soft (.reportSignalQuality 1 (some 1))

/-- Stop reporting events: those of the generic modem last. -/
def disableEvents : Operation Simcom Unit := do
  discard <| step false .soft (.reportSystemMode 0)
  discard <| step false .soft (.reportSignalQuality 0 none)
  parent .disableEvents

/-- Take in an unsolicited code: the modem after it, and whether the code concerned it. -/
def handle (m : Simcom) : Urc → Simcom × Bool
  | .systemMode stat => ({ m with technology := technologyOfSystemMode stat }, true)
  | _ => (m, false)

end Simcom

end Cellular
