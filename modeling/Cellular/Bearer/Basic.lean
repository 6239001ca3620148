import Cellular.Registration
import Cellular.Wait.Debouncer
import Cellular.Error
/-!
# Bearers

A bearer is a connection that several parties act on: callers connect and disconnect it, and changes
of registration may force it down.  The vendor's way to bring it up and down is a `Backend`, of
which the bearer runs one call at a time, under a lock.

Every action is a machine.  `Bearer.call` starts one and runs it up to its first wait,
`Bearer.resume` polls it from there; between two polls of one action any other may run.  What an
action does before its first wait and after its last is atomic:

* a connect is refused while another connect or disconnect is under way and while roaming is
  forbidden; a connect whose vendor call ends after it was cancelled is undone by a vendor
  disconnect;
* a disconnect that meets a connect cancels it and waits for its end;
* a forced disconnect that meets a connect cancels it, and one that meets a disconnect leaves the
  work to it.

A bearer keeps a history of what happens to it, in the order in which it happens.  Nothing that it
does depends on the history; what is true of whole runs is said about it.
-/

namespace Cellular

/-- How far a bearer is. -/
inductive BearerStatus where
  | disconnected
  | disconnecting
  | connecting
  | connected
  deriving DecidableEq, Repr

/-- A vendor's way to bring a connection up and down, over a state `σ` of its own. -/
structure Backend (σ : Type) where
  /-- A call under way. -/
  Call : Type
  /-- Begin to bring the connection up. -/
  connect : σ → Call
  /-- Begin to bring the connection down. -/
  disconnect : σ → Call
  /-- Poll a call.  The cancellation token is shown to it. -/
  poll : (cancelled : Bool) → Call → σ → σ × Poll Call (Except Error Unit)
  /-- When the timers of a call expire. -/
  timers : Call → List Nat
  /-- The clock. -/
  now : σ → Nat

/-- What a vendor call is made for. -/
inductive Errand where
  /-- To connect. -/
  | connect
  /-- To undo a connect that was cancelled. -/
  | undo
  /-- To disconnect, unless that fails. -/
  | disconnect
  /-- To disconnect whatever happens. -/
  | force
  deriving DecidableEq, Repr

/-- Something that happens to a bearer. -/
inductive BearerEvent where
  /-- Its status is set. -/
  | status (status : BearerStatus)
  /-- A vendor call begins. -/
  | began (errand : Errand)
  /-- A vendor call is over. -/
  | ended (errand : Errand) (result : Except Error Unit)
  /-- Somebody asks for a disconnect, one that may fail or a forced one. -/
  | asked (forced : Bool)
  /-- The grace period of a domain is over. -/
  | expired (domain : Domain)

/-- A bearer over a vendor's state. -/
structure Bearer (σ : Type) where
  /-- How far it is. -/
  status : BearerStatus := .disconnected
  /-- What registration forbids. -/
  tracker : Tracker
  /-- Whether the connect under way is to be given up. -/
  cancelled : Bool := false
  /-- Whether a vendor call is under way. -/
  locked : Bool := false
  /-- The disconnect that is pending because of the 3GPP domain. -/
  threeGpp : Debouncer
  /-- The disconnect that is pending because of the CDMA domain. -/
  cdma : Debouncer
  /-- The vendor's state. -/
  vendor : σ
  /-- What has happened to it. -/
  history : List BearerEvent := []

/-- An action at one of its waits.  `ν` is the vendor's call under way. -/
inductive ActionWait (ν : Type) where
  /-- For the lock. -/
  | lock (errand : Errand)
  /-- For the vendor. -/
  | vendor (errand : Errand) (call : ν)
  /-- For the connect that was cancelled to end. -/
  | ending

/-- When the timers of a wait expire, given those of the vendor's call. -/
def ActionWait.timers {ν : Type} (ofCall : ν → List Nat) : ActionWait ν → List Nat
  | .vendor _ call => ofCall call
  | _ => []

/-- What can be done to a bearer. -/
inductive Action where
  | connect
  | disconnect
  | force
  | registered (status : RegistrationStatus)
  | registeredCdma (cdma1x evdo : CdmaState)
  deriving DecidableEq, Repr

namespace Bearer

variable {σ : Type}

/-- A bearer that is down, given whether roaming is allowed, whether the modem is mixed, and the
grace period of a registration that is lost. -/
def start (allowRoaming mixed : Bool) (grace : Nat) (vendor : σ) : Bearer σ :=
  { tracker := { allowRoaming, mixed }, threeGpp := { timeout := grace },
    cdma := { timeout := grace }, vendor }

/-- The disconnect that is pending because of a domain. -/
def deferral (b : Bearer σ) : Domain → Debouncer
  | .threeGpp => b.threeGpp
  | .cdma => b.cdma

/-- The domain in which roaming forbids a connection; CDMA counts on mixed modems. -/
def roamingDomain? (b : Bearer σ) : Option Domain :=
  [Domain.threeGpp, .cdma].find? fun d =>
    (d = .threeGpp || b.tracker.mixed) && b.tracker.reason d = .roaming

/-- Take down that something happens. -/
def note (b : Bearer σ) (event : BearerEvent) : Bearer σ :=
  { b with history := b.history ++ [event] }

/-- Set the status. -/
def setStatus (b : Bearer σ) (status : BearerStatus) : Bearer σ :=
  { b with status }.note (.status status)

/-- The bearer after an action, and where the action stands. -/
abbrev Progress (be : Backend σ) := Bearer σ × Poll (ActionWait be.Call) (Except Error Unit)

variable (be : Backend σ)

/-- The end of an action that had the lock. -/
def finish (b : Bearer σ) (status : BearerStatus) (result : Except Error Unit) : Progress be :=
  ({ b.setStatus status with locked := false }, .ready result)

/-- What a vendor's disconnect leads to. -/
def afterDisconnect (b : Bearer σ) : Errand → Except Error Unit → Progress be
  | .undo, _ => b.finish be .disconnected (.error .cancelled)
  | .disconnect, .error e => b.finish be .connected (.error e)
  | _, _ => b.finish be .disconnected (.ok ())

/-- Poll a vendor's disconnect. -/
def pollDisconnect (b : Bearer σ) (errand : Errand) (call : be.Call) : Progress be :=
  match be.poll b.cancelled call b.vendor with
  | (vendor, .pending call) => ({ b with vendor }, .pending (.vendor errand call))
  | (vendor, .ready result) =>
    ({ b with vendor }.note (.ended errand result)).afterDisconnect be errand result

/-- Undo a connect that was cancelled. -/
def undo (b : Bearer σ) : Progress be :=
  ((b.setStatus .disconnecting).note (.began .undo)).pollDisconnect be .undo
    (be.disconnect b.vendor)

/-- What a vendor's connect leads to. -/
def afterConnect (b : Bearer σ) : Except Error Unit → Progress be
  | .error .cancelled => b.undo be
  | .error e => b.finish be .disconnected (.error e)
  | .ok () => if b.cancelled then b.undo be else b.finish be .connected (.ok ())

/-- Poll a vendor's connect. -/
def pollConnect (b : Bearer σ) (call : be.Call) : Progress be :=
  match be.poll b.cancelled call b.vendor with
  | (vendor, .pending call) => ({ b with vendor }, .pending (.vendor .connect call))
  | (vendor, .ready result) =>
    ({ b with vendor }.note (.ended .connect result)).afterConnect be result

/-- Poll a vendor call. -/
def pollVendor (b : Bearer σ) (errand : Errand) (call : be.Call) : Progress be :=
  match errand with
  | .connect => b.pollConnect be call
  | errand => b.pollDisconnect be errand call

/-- Begin a vendor call, or wait for the lock. -/
def launch (b : Bearer σ) (errand : Errand) : Progress be :=
  if b.locked then (b, .pending (.lock errand))
  else
    let call := if errand = .connect then be.connect b.vendor else be.disconnect b.vendor
    ({ b with locked := true }.note (.began errand)).pollVendor be errand call

/-- Connect. -/
def connect (b : Bearer σ) : Progress be :=
  match b.status with
  | .connecting => (b, .ready (.error (.inProgress "Bearer already being connected")))
  | .disconnecting => (b, .ready (.error (.inProgress "Bearer currently being disconnected")))
  | status =>
    match b.roamingDomain? with
    | some domain => (b, .ready (.error (.forbidden domain .roaming)))
    | none =>
      if status = .connected then (b, .ready (.ok ()))
      else ({ b with cancelled := false }.setStatus .connecting).launch be .connect

/-- Wait for the connect that was cancelled to end. -/
def awaitEnd (b : Bearer σ) : Progress be :=
  if b.status = .disconnected then (b, .ready (.ok ())) else (b, .pending .ending)

/-- Disconnect. -/
def disconnect (b : Bearer σ) : Progress be :=
  let b := b.note (.asked false)
  match b.status with
  | .disconnected => (b, .ready (.ok ()))
  | .disconnecting => (b, .ready (.error (.inProgress "Bearer already being disconnected")))
  | .connecting => { b.setStatus .disconnecting with cancelled := true }.awaitEnd be
  | .connected => (b.setStatus .disconnecting).launch be .disconnect

/-- Disconnect whatever happens. -/
def force (b : Bearer σ) : Progress be :=
  let b := b.note (.asked true)
  match b.status with
  | .disconnected | .disconnecting => (b, .ready (.ok ()))
  | .connecting => ({ b with cancelled := true }, .ready (.ok ()))
  | .connected => (b.setStatus .disconnecting).launch be .force

/-- Call off the disconnects that are pending. -/
def callOff (b : Bearer σ) : Bearer σ :=
  { b with threeGpp := b.threeGpp.cancel.1, cdma := b.cdma.cancel.1 }

/-- Let a disconnect be pending because of a domain. -/
def defer (b : Bearer σ) : Domain → Bearer σ
  | .threeGpp => { b with threeGpp := (b.threeGpp.arm (be.now b.vendor)).1 }
  | .cdma => { b with cdma := (b.cdma.arm (be.now b.vendor)).1 }

/-- Do what a report means. -/
def apply (b : Bearer σ) : Verdict → Progress be
  | .allow => (b.callOff, .ready (.ok ()))
  | .disconnectNow => b.callOff.force be
  | .unregistered domain =>
    if (b.deferral domain).isArmed then (b, .ready (.ok ()))
    else if b.status ≠ .connected then b.force be
    else (b.defer be domain, .ready (.ok ()))

/-- Start an action and run it up to its first wait. -/
def call (b : Bearer σ) : Action → Progress be
  | .connect => b.connect be
  | .disconnect => b.disconnect be
  | .force => b.force be
  | .registered status =>
    let (tracker, verdict) := b.tracker.update3gpp status
    { b with tracker }.apply be verdict
  | .registeredCdma cdma1x evdo =>
    let (tracker, verdict) := b.tracker.updateCdma cdma1x evdo
    { b with tracker }.apply be verdict

/-- Poll an action. -/
def resume (b : Bearer σ) : ActionWait be.Call → Progress be
  | .lock errand => b.launch be errand
  | .vendor errand call => b.pollVendor be errand call
  | .ending => b.awaitEnd be

end Bearer

end Cellular
