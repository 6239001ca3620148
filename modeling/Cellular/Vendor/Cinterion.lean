import Cellular.Procedure.Operation
import Cellular.Command.Standard
import Cellular.Command.Cinterion
import Cellular.Vendor.BearerKind
import Cellular.Config
/-!
# Cinterion modems

Switching off joins the reply to `^SMSO` with the `^SHUTDOWN` line, which may come in either order.
Changes of the access technology are reported through the `psinfo` indicator where the firmware has
it, and asked for through `^SMONG` where it has not.  What the module can do is asked once and
remembered: its sleep level, its support for network connections, the `psinfo` indicator, its bands
and the settings it has for new messages.
-/

namespace Cellular

/-- The lowest level of functionality that the radio can be put to. -/
inductive SleepMode where
  /-- Not known yet. -/
  | unknown
  /-- There is none. -/
  | none
  /-- A level of functionality. -/
  | level (n : Nat)
  deriving DecidableEq, Repr

/-- A Cinterion modem and what is known about it. -/
structure Cinterion where
  /-- The radio technologies that the module has. -/
  radio : Modes
  /-- Whether there is a port that can carry network traffic. -/
  hasNetPort : Bool
  /-- Bounds of waits. -/
  timing : Timing
  /-- The level to put the radio to. -/
  sleepMode : SleepMode := .unknown
  /-- The operator of the last selection that succeeded, `none` for an automatic one. -/
  operator : Option String := none
  /-- The mask of the supported bands, 0 before it was loaded. -/
  supportedBands : Nat := 0
  /-- The settings for new messages that the module has. -/
  messages : Option MessageIndicationSupport := none
  /-- Whether the module has network connections over the net port. -/
  wwan : Feature := .unknown
  /-- Whether the module has the `psinfo` indicator. -/
  psinfo : Feature := .unknown
  /-- The access technology as last reported. -/
  technology : AccessTechnology := .unknown
  deriving DecidableEq, Repr

namespace Cinterion

open Operation

/-- The modem of a configuration. -/
def ofConfig (radio : Modes) (config : Config) : Cinterion :=
  { radio, hasNetPort := config.hasNetPort, timing := config.timing }

/-! ## Power -/

/-- The level to put the radio to, given the answer about the levels there are. -/
def sleepModeOf : Except Error (List Nat) → SleepMode
  | .ok levels =>
    if levels.contains 4 then .level 4 else if levels.contains 7 then .level 7 else .none
  | .error _ => .none

/-- Put the radio to its lowest level. -/
def powerDown : Operation Cinterion Unit := do
  if (← get).sleepMode = .unknown then
    let levels ← attempt .testFunctionality
    modify fun m => { m with sleepMode := sleepModeOf levels }
  match (← get).sleepMode with
  | .level n => discard <| step false .soft (.setFunctionality n)
  | _ => pure ()

/-- Switch the module off. -/
def powerOff : Operation Cinterion Unit := do
  let limit := (← get).timing.powerOffWait
  withSeat fun ticket =>
    discard <| join .switchOff .fatal ticket (· = .shutdown)
      ⟨.awaitNotification, limit, "Power off operation timed out"⟩

/-- Turn hardware flow control on. -/
def setupFlowControl : Operation Cinterion Unit := send .hardwareFlowControl

/-! ## SIM -/

/-- Read the counters of a list of locks into `known`; a counter that cannot be read is passed
over. -/
def readCounters : List (Lock × Command Nat) → UnlockRetries → Operation Cinterion UnlockRetries
  | [], known => pure known
  | (lock, command) :: rest, known => do
    match ← attempt command with
    | .ok retries => readCounters rest (known.set lock retries)
    | .error _ => readCounters rest known

/-- Read how many attempts are left for every lock. -/
def loadUnlockRetries : Operation Cinterion UnlockRetries := readCounters Command.pinCounters {}

/-- Whether an answer says that the SIM is ready. -/
def simIsReady : Except Error IndicatorState → Bool
  | .ok state => state.description = "simstatus" && state.value = 5
  | .error _ => false

/-- Ask up to `retries` times whether the SIM is ready, and wait after every time it is not. -/
def awaitSim (interval : Nat) : (retries : Nat) → Operation Cinterion Unit
  | 0 => pure ()
  | retries + 1 => do
    if simIsReady (← attempt (.setIndicator "simstatus" 2)) then pure ()
    else
      pause interval
      awaitSim interval retries

/-- Wait for the SIM after it was unlocked, but not for ever. -/
def afterSimUnlock : Operation Cinterion Unit := do
  let timing := (← get).timing
  awaitSim timing.simReadyInterval timing.simReadyRetries

/-! ## Bands -/

/-- Load the supported bands and remember their mask. -/
def loadSupportedBands : Operation Cinterion (List Band) := do
  let supported ← send .testConfiguration
  modify fun m => { m with supportedBands := supported.mask }
  return supported.bands

/-- Load the current bands. -/
def loadCurrentBands : Operation Cinterion (List Band) := send .radioBand

/-- How many digits there is room for in a quoted mask. -/
def maskCapacity : Nat := 10

/-- Choose bands: a modem without 3G takes the mask twice, as a quoted text. -/
def setCurrentBands (bands : List Band) : Operation Cinterion Unit := do
  let m ← get
  if m.radio.contains .g3 then
    let mask ← liftExcept (bandMask? bands m.supportedBands false)
    send (.setRadioBand mask 1)
  else
    let mask ← liftExcept (bandMask? bands m.supportedBands true)
    if mask.repr.utf8ByteSize ≤ maskCapacity then
      send (.setRadioBandQuoted mask.repr mask.repr)
    else throw .overflow

/-! ## Modes and operators -/

/-- The combinations of modes that a module with that radio has. -/
def combinations (radio : Modes) : List ModeCombination :=
  [.only .g2, .only .g3] ++
    if radio.contains .g4 then [.only .g4, .only (.g2 ||| .g3 ||| .g4)] else [.only (.g2 ||| .g3)]

/-- Load the combinations of modes that both the module and the generic modem have. -/
def loadSupportedModes : Operation Cinterion (List ModeCombination) := do
  let generic ← parentModes
  return ModeCombination.filterSupported generic (combinations (← get).radio)

/-- The access technologies that a single mode is forced through. -/
def forcedTechnologies : List (Modes × Nat) := [(.g4, 7), (.g3, 2), (.g2, 0)]

/-- The command that registers with an operator, or automatically. -/
def selection : Option String → Command Unit
  | some operator => .manualOperator operator
  | none => .automaticOperator

/-- Choose modes.  A single one that the radio has is forced; all else restores the last selection
of an operator. -/
def setCurrentModes (mode : ModeCombination) : Operation Cinterion Unit := do
  if !mode.preferred.isNone then throw (.unsupported (.modes mode))
  let m ← get
  match forcedTechnologies.find? fun t => mode.allowed = t.1 && m.radio.contains t.1 with
  | some (_, act) => send (.operatorTechnology act)
  | none => send (selection m.operator)

/-- Register with an operator, or automatically, and remember the choice once the modem took it. -/
def registerInNetwork (operator : Option String) : Operation Cinterion Unit := do
  if operator.any fun o => Command.operatorCapacity < o.utf8ByteSize then throw .overflow
  send (selection operator)
  modify fun m => { m with operator }

/-! ## Events -/

/-- Ask the generic modem something and go on whatever comes of it. -/
def parentIgnored (call : ParentCall) : Operation Cinterion Unit :=
  discard <| catching (parent call)

/-- Report events.  The first answer about `psinfo` decides whether it is used from then on. -/
def enableEvents : Operation Cinterion Unit := do
  parentIgnored .enableEvents
  let enable : Operation Cinterion (Except Error IndicatorState) :=
    attempt (.setIndicator "psinfo" 1)
  let state ← match (← get).psinfo with
    | .notSupported => pure none
    | .unknown => do
      let (state, psinfo) ← (← get).psinfo.resolveValue enable
      modify fun m => { m with psinfo }
      pure state
    | .supported => do pure (← enable).toOption
  match state with
  | some state => modify fun m => { m with technology := technologyOfPsinfo state.value }
  | none => pure ()

/-- Stop reporting events. -/
def disableEvents : Operation Cinterion Unit := do
  if (← get).psinfo.isSupported then
    discard <| attempt (.setIndicator "psinfo" 0)
  parentIgnored .disableEvents

/-- Take in an unsolicited code: the modem after it, and whether the code concerned it. -/
def handle (m : Cinterion) : Urc → Cinterion × Bool
  | .indicator name value =>
    if name = "psinfo" then ({ m with technology := technologyOfPsinfo value }, true)
    else (m, false)
  | _ => (m, false)

/-- Ask for the access technology, where it is not reported. -/
def loadTechnology : Operation Cinterion AccessTechnology := do
  if (← get).psinfo.isSupported then
    throw (.unsupported (.operation "No need to poll access technologies"))
  let technology ← send .gprsMonitor
  modify fun m => { m with technology }
  return technology

/-! ## Bearers -/

/-- The kind of bearer for a new connection. -/
def createBearer : Operation Cinterion BearerKind := do
  if (← get).wwan = .unknown ∧ !(← get).hasNetPort then
    modify fun m => { m with wwan := m.wwan.resolveWithoutPort }
  let wwan ← (← get).wwan.resolve (attempt .testWwan)
  modify fun m => { m with wwan }
  return wwan.bearerKind

/-! ## Messages -/

/-- Load the settings for new messages that the module has.  A reply that cannot be read leaves what
is known as it is. -/
def checkMessaging : Operation Cinterion Unit := do
  match ← attempt .testMessageIndication with
  | .ok support => modify fun m => { m with messages := some support }
  | .error (.parse _) => pure ()
  | .error e => throw e

/-- The first value of a preference that is listed. -/
def pick (field : String) (listed preference : List Nat) : Except Error Nat :=
  match preference.find? listed.contains with
  | some n => .ok n
  | none => .error (.unsupported (.messageSetting field preference))

/-- The command that chooses the most capable settings for new messages. -/
def messageSetting (s : MessageIndicationSupport) : Except Error (Command Unit) := do
  let mode ← pick "mode" s.mode [2, 1]
  let mt ← pick "mt" s.mt [2, 1]
  let bm ← pick "bm" s.bm [2, 0]
  let ds ← pick "ds" s.ds [2, 1, 0]
  return .setMessageIndication mode mt bm ds (if s.bfr.contains 1 then some 1 else none)

/-- Have new messages indicated. -/
def enableMessaging : Operation Cinterion Unit := do
  let command ← liftExcept (messageSetting ((← get).messages.getD {}))
  send command

/-! ## Everything that the modem can be asked for -/

/-- Something that the modem can be asked for. -/
inductive Task where
  | powerDown
  | powerOff
  | setupFlowControl
  | loadUnlockRetries
  | afterSimUnlock
  | loadSupportedBands
  | loadCurrentBands
  | setCurrentBands (bands : List Band)
  | loadSupportedModes
  | setCurrentModes (mode : ModeCombination)
  | registerInNetwork (operator : Option String)
  | enableEvents
  | disableEvents
  | handle (code : Urc)
  | loadTechnology
  | createBearer
  | checkMessaging
  | enableMessaging

/-- What a task gives. -/
inductive Value where
  | nothing
  | retries (retries : UnlockRetries)
  | bands (bands : List Band)
  | choices (choices : List ModeCombination)
  | handled (concerned : Bool)
  | technology (technology : AccessTechnology)
  | kind (kind : BearerKind)

/-- Do what the modem is asked for. -/
def perform : Task → Operation Cinterion Value
  | .powerDown => do powerDown; return .nothing
  | .powerOff => do powerOff; return .nothing
  | .setupFlowControl => do setupFlowControl; return .nothing
  | .loadUnlockRetries => return .retries (← loadUnlockRetries)
  | .afterSimUnlock => do afterSimUnlock; return .nothing
  | .loadSupportedBands => return .bands (← loadSupportedBands)
  | .loadCurrentBands => return .bands (← loadCurrentBands)
  | .setCurrentBands bands => do setCurrentBands bands; return .nothing
  | .loadSupportedModes => return .choices (← loadSupportedModes)
  | .setCurrentModes mode => do setCurrentModes mode; return .nothing
  | .registerInNetwork operator => do registerInNetwork operator; return .nothing
  | .enableEvents => do enableEvents; return .nothing
  | .disableEvents => do disableEvents; return .nothing
  | .handle code => do
    let (m, concerned) := (← get).handle code
    set m
    return .handled concerned
  | .loadTechnology => return .technology (← loadTechnology)
  | .createBearer => return .kind (← createBearer)
  | .checkMessaging => do checkMessaging; return .nothing
  | .enableMessaging => do enableMessaging; return .nothing

end Cinterion

end Cellular
