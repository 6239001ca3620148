import Cellular.Error
import Cellular.Radio.Technology
/-!
# MBIM modems

A modem with a mobile broadband interface tells its capabilities through a query, and reports
changes through notifications that are subscribed to with one list.  The list is rebuilt from the
categories that are wanted at the moment, whenever one of them changes, and names each service at
most once.

Some of these modems also take QMI messages through a tunnel.  Once the tunnel has reported
capabilities, every capability and mode operation goes through it.
-/

namespace Cellular.Mbim

/-! ## Device capabilities -/

/-- What a query of the device capabilities tells. -/
structure DeviceCaps where
  /-- Families of cellular technology: bit 0 for GSM. -/
  cellularClass : Nat := 0
  /-- Kinds of data service, a bit for each. -/
  dataClass : Nat := 0
  deriving DecidableEq, Repr

/-- Bits of the data class that mean 2G: GPRS, EDGE, 1xRTT. -/
def bits2g : List Nat := [0, 1, 16]

/-- Bits of the data class that mean 3G: UMTS, HSDPA, HSUPA, and the EV-DO family. -/
def bits3g : List Nat := [2, 3, 4, 17, 18, 19, 20, 21]

/-- Bits of the data class that mean 4G: LTE and UMB. -/
def bits4g : List Nat := [5, 22]

namespace DeviceCaps

/-- The capabilities that the device has. -/
def capability (c : DeviceCaps) : Capability :=
  (if c.cellularClass.testBit 0 then .gsmUmts else .none)
    ||| (if c.dataClass.testBit 5 then .lte else .none)

/-- The modes that the device has. -/
def modes (c : DeviceCaps) : Modes :=
  (if bits2g.any c.dataClass.testBit then .g2 else .none)
    ||| (if bits3g.any c.dataClass.testBit then .g3 else .none)
    ||| (if bits4g.any c.dataClass.testBit then .g4 else .none)

end DeviceCaps

/-! ## Categories of notifications -/

/-- A category of notifications. -/
inductive Category where
  | signalQuality
  | registrationUpdates
  | smsRead
  | connect
  | subscriberInfo
  | packetService
  | pco
  | ussd
  deriving DecidableEq, Repr

/-- Every category, in order. -/
def Category.all : List Category :=
  [.signalQuality, .registrationUpdates, .smsRead, .connect, .subscriberInfo, .packetService,
    .pco, .ussd]

theorem Category.mem_all (c : Category) : c ∈ Category.all := by
  cases c <;> decide

/-- A set of categories. -/
@[ext] structure Categories where
  /-- Whether a category is in the set. -/
  has : Category → Bool

namespace Categories

/-- No category. -/
def none : Categories := ⟨fun _ => false⟩

/-- The set of the categories in a list. -/
def ofList (cs : List Category) : Categories := ⟨cs.contains⟩

/-- The categories of the set, in order. -/
def toList (s : Categories) : List Category := Category.all.filter s.has

/-- The categories in either set. -/
def union (s t : Categories) : Categories := ⟨fun c => s.has c || t.has c⟩

/-- The categories of `s` that are not in `t`. -/
def remove (s t : Categories) : Categories := ⟨fun c => s.has c && !t.has c⟩

/-- Whether every category of `t` is in `s`. -/
def contains (s t : Categories) : Bool := t.toList.all s.has

end Categories

/-! ## Subscription lists -/

/-- A service of the device that notifications come from. -/
inductive Service where
  | basicConnect
  | basicConnectExtensions
  | sms
  | ussd
  deriving DecidableEq, Repr

/-- An entry of a subscription list: a service and the commands whose notifications are wanted. -/
structure Entry where
  service : Service
  cids : List Nat
  deriving DecidableEq, Repr

/-- The categories that basic connectivity reports, and the number of the command of each. -/
def basicCids : List (Category × Nat) :=
  [(.signalQuality, 11), (.registrationUpdates, 9), (.connect, 12), (.subscriberInfo, 2),
    (.packetService, 10)]

/-- The entry of a service, or nothing when it has no commands. -/
def entry (service : Service) (cids : List Nat) : List Entry :=
  if cids.isEmpty then [] else [⟨service, cids⟩]

/-- The list that subscribes to a set of categories. -/
def subscribeList (s : Categories) : List Entry :=
  entry .basicConnect ((basicCids.filter fun e => s.has e.1).map Prod.snd)
    ++ entry .basicConnectExtensions (if s.has .pco then [9] else [])
    ++ entry .sms (if s.has .smsRead then [2, 6] else [])
    ++ entry .ussd (if s.has .ussd then [1] else [])

/-! ## The modem and what it talks to -/

/-- What the setup of notifications depends on. -/
structure Options where
  /-- Whether the device reports configuration options of the network. -/
  pco : Bool := false
  /-- Whether changes of the SIM are watched by other means. -/
  simHotSwap : Bool := false
  deriving DecidableEq, Repr

/-- A modem and what is known about it. -/
structure Modem where
  /-- Whether there is a tunnel for QMI messages. -/
  hasTunnel : Bool
  /-- What the setup depends on. -/
  options : Options
  /-- The capabilities as the device last reported them. -/
  caps : DeviceCaps := {}
  /-- Whether capability and mode operations go through the tunnel. -/
  switching : Bool := false
  /-- The categories whose notifications are processed. -/
  setup : Categories := .none
  /-- The categories that are wanted. -/
  enabled : Categories := .none

/-- A message to the device or through the tunnel. -/
inductive Call where
  | deviceCaps
  | subscribe (list : List Entry)
  | capabilities
  | supportedCapabilities
  | modes
  | supportedModes
  | setModes (mode : ModeCombination)
  deriving DecidableEq, Repr

/-- What the device and the tunnel answer, message by message. -/
structure Answers where
  deviceCaps : Except Error DeviceCaps
  subscribe : List Entry → Except Error Unit
  capabilities : Except Error Capability
  supportedCapabilities : Except Error (List Capability)
  modes : Except Error ModeCombination
  supportedModes : Except Error (List ModeCombination)
  setModes : ModeCombination → Except Error Unit

/-- What came of an operation: its result, the modem after it, and the messages it sent. -/
structure Outcome (α : Type) where
  result : Except Error α
  modem : Modem
  calls : List Call

/-- The outcome with its value taken through `f`. -/
def Outcome.map {α β : Type} (f : α → β) (o : Outcome α) : Outcome β :=
  { o with result := o.result.map f }

namespace Modem

/-- Whether operations on capabilities and modes go through the tunnel. -/
def tunnelled (m : Modem) : Bool := m.switching && m.hasTunnel

/-- The capabilities that the tunnel reports, none when there is no tunnel or no answer. -/
def tunnelCapability (m : Modem) (answers : Answers) : Capability :=
  if m.hasTunnel then
    match answers.capabilities with
    | .ok c => c
    | .error _ => .none
  else .none

/-- Load the capabilities, through the tunnel and from the device.  What the tunnel reports wins,
and from then on everything goes through it. -/
def loadCurrentCapabilities (m : Modem) (answers : Answers) : Outcome Capability :=
  let calls := (if m.hasTunnel then [Call.capabilities] else []) ++ [.deviceCaps]
  match answers.deviceCaps with
  | .error e => ⟨.error e, m, calls⟩
  | .ok caps =>
    let m := { m with caps }
    let reported := m.tunnelCapability answers
    if reported ≠ .none then ⟨.ok reported, { m with switching := true }, calls⟩
    else ⟨.ok caps.capability, m, calls⟩

/-- How many capabilities a list of supported ones holds. -/
def capabilitiesCapacity : Nat := 4

/-- Load the capabilities there could be: those of the device are the ones it has. -/
def loadSupportedCapabilities (m : Modem) (answers : Answers) : Outcome (List Capability) :=
  if m.tunnelled then
    ⟨answers.supportedCapabilities.map (·.take capabilitiesCapacity), m, [.supportedCapabilities]⟩
  else if m.caps.capability = .none then
    ⟨.error (.failed
      "Couldn't load supported capabilities: no previously catched current capabilities"), m, []⟩
  else ⟨.ok [m.caps.capability], m, []⟩

/-- Load the modes there could be: those of the device are the ones it has. -/
def loadSupportedModes (m : Modem) (answers : Answers) : Outcome (List ModeCombination) :=
  if m.tunnelled then
    ⟨answers.supportedModes.map (·.take ModeCombination.listCapacity), m, [.supportedModes]⟩
  else if m.caps.dataClass = 0 then
    ⟨.error (.failed "Data class not given in device capabilities"), m, []⟩
  else ⟨.ok [.only m.caps.modes], m, []⟩

/-- Load the modes, which only the tunnel can tell. -/
def loadCurrentModes (m : Modem) (answers : Answers) : Outcome ModeCombination :=
  if m.tunnelled then ⟨answers.modes, m, [.modes]⟩
  else ⟨.error (.unsupported (.operation "Current mode loading is not supported")), m, []⟩

/-- Choose modes, which only the tunnel can do. -/
def setCurrentModes (m : Modem) (answers : Answers) (mode : ModeCombination) : Outcome Unit :=
  if m.tunnelled then ⟨answers.setModes mode, m, [.setModes mode]⟩
  else ⟨.error (.unsupported (.operation "Current mode switching is not supported")), m, []⟩

/-- The categories that every 3GPP modem reports. -/
def basic (m : Modem) : Categories :=
  .ofList ([.signalQuality, .connect, .subscriberInfo, .packetService]
    ++ if m.options.pco then [.pco] else [])

/-- Process the basic notifications. -/
def setupEvents (m : Modem) : Modem := { m with setup := m.setup.union m.basic }

/-- Process the basic notifications no longer; those on the SIM are kept unless it is watched by
other means. -/
def cleanupEvents (m : Modem) : Modem :=
  let gone :=
    if m.options.simHotSwap then m.basic else m.basic.remove (.ofList [.subscriberInfo])
  { m with setup := m.setup.remove gone }

/-- Process the notifications of a category. -/
def process (m : Modem) (c : Category) : Modem :=
  { m with setup := m.setup.union (.ofList [c]) }

/-- Process the notifications of a category no longer. -/
def ignore (m : Modem) (c : Category) : Modem :=
  { m with setup := m.setup.remove (.ofList [c]) }

/-- Whether all notifications of a set are processed. -/
def processes (m : Modem) (s : Categories) : Bool := m.setup.contains s

/-- Want more categories, or fewer, and subscribe to all that are wanted now.  The change stays even
when the device refuses the list. -/
def toggle (m : Modem) (answers : Answers) (s : Categories) (enable : Bool) : Outcome Unit :=
  let m := { m with enabled := if enable then m.enabled.union s else m.enabled.remove s }
  let list := subscribeList m.enabled
  ⟨answers.subscribe list, m, [.subscribe list]⟩

end Modem

/-! ## What is asked of the modem -/

/-- Notifications that are wanted together, or not. -/
inductive Group where
  /-- What every 3GPP modem reports. -/
  | basic
  | registration
  | messaging
  | ussd
  deriving DecidableEq, Repr

/-- The categories of a group. -/
def Modem.group (m : Modem) : Group → Categories
  | .basic => m.basic
  | .registration => .ofList [.registrationUpdates]
  | .messaging => .ofList [.smsRead]
  | .ussd => .ofList [.ussd]

/-- Everything that can be asked of the modem. -/
inductive Task where
  | currentCapabilities
  | supportedCapabilities
  | currentModes
  | supportedModes
  | setModes (mode : ModeCombination)
  | setupEvents
  | cleanupEvents
  /-- Process the notifications of a category. -/
  | process (category : Category)
  /-- Process the notifications of a category no longer. -/
  | ignore (category : Category)
  /-- Want the notifications of a group, or not any more. -/
  | want (group : Group) (enable : Bool)
  deriving DecidableEq, Repr

/-- What comes of a task. -/
inductive Value where
  | nothing
  | capability (current : Capability)
  | capabilities (supported : List Capability)
  | modes (current : ModeCombination)
  | choices (supported : List ModeCombination)
  deriving DecidableEq, Repr

/-- Do what is asked. -/
def Modem.perform (m : Modem) (answers : Answers) : Task → Outcome Value
  | .currentCapabilities => (m.loadCurrentCapabilities answers).map .capability
  | .supportedCapabilities => (m.loadSupportedCapabilities answers).map .capabilities
  | .currentModes => (m.loadCurrentModes answers).map .modes
  | .supportedModes => (m.loadSupportedModes answers).map .choices
  | .setModes mode => (m.setCurrentModes answers mode).map fun _ => .nothing
  | .setupEvents => ⟨.ok .nothing, m.setupEvents, []⟩
  | .cleanupEvents => ⟨.ok .nothing, m.cleanupEvents, []⟩
  | .process category => ⟨.ok .nothing, m.process category, []⟩
  | .ignore category => ⟨.ok .nothing, m.ignore category, []⟩
  | .want group enable => (m.toggle answers (m.group group) enable).map fun _ => .nothing

end Cellular.Mbim
