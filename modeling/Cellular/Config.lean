import Cellular.Json.Reader
import Cellular.Radio.Mode
import Cellular.Radio.Band
/-!
# Configuration

What a modem's owner may set: whether roaming is allowed, credentials, which hardware there is, and
the bounds of the waits around commands.  Durations are kept in milliseconds.

A configuration is stored as a JSON object with one member for each setting, durations in whole
seconds.  Reading requires every member exactly once, with the type it is written in; members of
other names are passed over.  An array of the members' values, in the order in which they are
written, stands for the object.  Strings have room for 64 octets (the access point) or 32 (the
credentials).
-/

namespace Cellular

/-- Bounds of the waits that enclose commands, in milliseconds. -/
structure Timing where
  /-- How long a connected bearer outlives its registration. -/
  deferredUnregistration : Nat := 15000
  /-- How long the report on a dialled context may take. -/
  dialCompletion : Nat := 90000
  /-- How long switching off may take. -/
  powerOffWait : Nat := 20000
  /-- How long to wait between two questions whether the SIM is ready. -/
  simReadyInterval : Nat := 1000
  /-- How often to ask whether the SIM is ready. -/
  simReadyRetries : Nat := 15
  deriving DecidableEq, Repr

/-- What a modem's owner may set. -/
structure Config where
  /-- Whether a connection may stay up while roaming. -/
  allowRoaming : Bool := true
  /-- The access point. -/
  apn : String := ""
  /-- The user name of the access point. -/
  user : String := ""
  /-- The password of the access point. -/
  password : String := ""
  /-- Whether there is a port that can carry network traffic. -/
  hasNetPort : Bool := false
  /-- Whether the modem has both the 3GPP and the CDMA stack. -/
  mixed : Bool := false
  /-- Whether the radio has to be off while the initial bearer is changed. -/
  radioOffForInitialBearer : Bool := false
  /-- The bounds of waits. -/
  timing : Timing := {}
  deriving DecidableEq, Repr

namespace Json

/-- The truth value that a value is. -/
def bool? : Json → Option Bool
  | .bool b => some b
  | _ => none

/-- The natural number below `bound` that a value is. -/
def below? (bound : Nat) : Json → Option Nat
  | .whole (.ofNat n) => if n < bound then some n else none
  | _ => none

/-- The string of at most `capacity` octets that a value is. -/
def stringWithin? (capacity : Nat) : Json → Option String
  | .string s => if s.utf8ByteSize ≤ capacity then some s else none
  | _ => none

/-- The values of a record whose members have these names: those of an object that has each of them
exactly once, or the items of an array that has as many. -/
def record? (names : List String) : Json → Option (List Json)
  | .object members => names.mapM (only? members)
  | .array items => if items.length = names.length then some items else none
  | _ => none

end Json

namespace Timing

/-- Numbers of seconds are below this bound. -/
def secondsBound : Nat := 18446744073709551616

/-- A duration of whole seconds. -/
def seconds? (j : Json) : Option Nat := (j.below? secondsBound).map (· * 1000)

/-- The value that a set of bounds is stored as. -/
def toJson (t : Timing) : Json :=
  .object [("deferred_unregistration", .nat (t.deferredUnregistration / 1000)),
    ("dial_completion", .nat (t.dialCompletion / 1000)),
    ("power_off_wait", .nat (t.powerOffWait / 1000)),
    ("sim_ready_interval", .nat (t.simReadyInterval / 1000)),
    ("sim_ready_retries", .nat t.simReadyRetries)]

/-- The names of the bounds, in order. -/
def memberNames : List String :=
  ["deferred_unregistration", "dial_completion", "power_off_wait", "sim_ready_interval",
    "sim_ready_retries"]

/-- The bounds that a value stores. -/
def ofJson? (j : Json) : Option Timing := do
  match ← j.record? memberNames with
  | [grace, dial, off, interval, retries] =>
    return {
      deferredUnregistration := ← seconds? grace
      dialCompletion := ← seconds? dial
      powerOffWait := ← seconds? off
      simReadyInterval := ← seconds? interval
      simReadyRetries := ← retries.below? 256 }
  | _ => none

end Timing

namespace Config

/-- The value that a configuration is stored as. -/
def toJson (c : Config) : Json :=
  .object [("allow_roaming", .bool c.allowRoaming), ("apn", .string c.apn),
    ("user", .string c.user), ("password", .string c.password),
    ("has_net_port", .bool c.hasNetPort), ("mixed_3gpp_cdma", .bool c.mixed),
    ("initial_eps_off_on", .bool c.radioOffForInitialBearer), ("timing", c.timing.toJson)]

/-- The names of the settings, in order. -/
def memberNames : List String :=
  ["allow_roaming", "apn", "user", "password", "has_net_port", "mixed_3gpp_cdma",
    "initial_eps_off_on", "timing"]

/-- The configuration that a value stores. -/
def ofJson? (j : Json) : Option Config := do
  match ← j.record? memberNames with
  | [roaming, apn, user, password, port, mixed, radioOff, timing] =>
    return {
      allowRoaming := ← roaming.bool?
      apn := ← apn.stringWithin? 64
      user := ← user.stringWithin? 32
      password := ← password.stringWithin? 32
      hasNetPort := ← port.bool?
      mixed := ← mixed.bool?
      radioOffForInitialBearer := ← radioOff.bool?
      timing := ← Timing.ofJson? timing }
  | _ => none

end Config

/-- The value that a set of modes is stored as. -/
def Modes.toJson (m : Modes) : Json := .nat m.bits.toNat

/-- The set of modes that a value stores. -/
def Modes.ofJson? (j : Json) : Option Modes :=
  (j.below? 4294967296).map fun n => ⟨UInt32.ofNat n⟩

/-- The value that a combination of modes is stored as. -/
def ModeCombination.toJson (m : ModeCombination) : Json :=
  .object [("allowed", m.allowed.toJson), ("preferred", m.preferred.toJson)]

/-- The combination of modes that a value stores. -/
def ModeCombination.ofJson? (j : Json) : Option ModeCombination := do
  match ← j.record? ["allowed", "preferred"] with
  | [allowed, preferred] => return ⟨← Modes.ofJson? allowed, ← Modes.ofJson? preferred⟩
  | _ => none

/-- The value that a band is stored as. -/
def Band.toJson (b : Band) : Json := .string b.name

/-- The band that a value stores: its name, or an object with nothing under its name. -/
def Band.ofJson? : Json → Option Band
  | .string name => Band.ofName? name
  | .object [(name, .null)] => Band.ofName? name
  | _ => none

end Cellular
