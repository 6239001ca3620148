import Cellular.Bench.Mounted
import Cellular.Bearer.Deferral
import Cellular.Config
import Cellular.Wait.Schedule
/-!
# A bearer over time

Parties act on one bearer at given moments, each without regard to the others, while the pending
disconnects are carried out and unsolicited codes are listened to.  A `Connection` is that bearer
with all its parties.  After every action there is a `ConnectionEntry` that tells what came of it.
-/

namespace Cellular

/-- What a party does. -/
inductive Deed where
  /-- It acts on the bearer. -/
  | act (action : Action)
  /-- It makes the modem emit a line. -/
  | line (line : Bytes)
  /-- It only looks. -/
  | look
  deriving DecidableEq, Repr

/-- What can be seen of a bearer. -/
structure BearerView where
  status : BearerStatus
  threeGpp : ForbiddenReason
  cdma : ForbiddenReason
  deriving DecidableEq, Repr

/-- What can be seen of a bearer. -/
def Bearer.view {σ : Type} (b : Bearer σ) : BearerView :=
  ⟨b.status, b.tracker.threeGpp, b.tracker.cdma⟩

/-- How a deed ended. -/
structure DeedEnd where
  result : Except Error Unit
  time : Nat
  after : BearerView

/-- What came of a deed. -/
structure ConnectionEntry where
  index : Nat
  time : Nat
  before : BearerView
  ending : Option DeedEnd := none

/-- Where a party stands. -/
inductive Party (ν : Type) where
  /-- Waiting for its moment. -/
  | waiting (timer : Timer) (deed : Deed)
  /-- Waiting for the bearer. -/
  | acting (wait : ActionWait ν)
  /-- Done. -/
  | done

/-- When the timers of a party expire, given those of the vendor's call. -/
def Party.timers {ν : Type} (ofCall : ν → List Nat) : Party ν → List Nat
  | waiting timer _ => [timer.expiresAt]
  | acting wait => wait.timers ofCall
  | done => []

/-- A mounted bearer and all its parties. -/
structure Connection {ν : Type} (be : Backend (Mounted ν)) where
  /-- The bearer. -/
  bearer : Bearer (Mounted ν)
  /-- The wait for the end, until it has come. -/
  closing : Option Timer
  /-- The parties, in order. -/
  parties : Array (Party be.Call)
  /-- What came of the deeds so far, in the order in which they began. -/
  entries : List ConnectionEntry := []
  /-- The party that carries pending disconnects out, if there is one. -/
  executor : Option (Executor be.Call)
  /-- The party that listens to unsolicited codes, if there is one, with its ticket. -/
  listener : Option (Nat × Listener be.Call)

namespace Connection

variable {ν : Type} {be : Backend (Mounted ν)}

/-- The bench. -/
def bench (c : Connection be) : Bench := c.bearer.vendor.bench

/-- Change the bench. -/
def onBench (f : Bench → Bench) (c : Connection be) : Connection be :=
  { c with bearer := { c.bearer with vendor := { c.bearer.vendor with bench := f c.bench } } }

/-- Take down that a deed begins. -/
def enter (i : Nat) (c : Connection be) : Connection be :=
  { c with entries := c.entries ++ [{ index := i, time := c.bench.now, before := c.bearer.view }] }

/-- Move a party to where it stands now. -/
def place (i : Nat) (party : Party be.Call) (c : Connection be) : Connection be :=
  { c with parties := c.parties.setIfInBounds i party }

/-- Take down that a deed has ended. -/
def conclude (i : Nat) (result : Except Error Unit) (c : Connection be) : Connection be :=
  let ending := some ⟨result, c.bench.now, c.bearer.view⟩
  { c.place i .done with
    entries := c.entries.map fun e => if e.index = i then { e with ending } else e }

/-- Take in what a poll of an action led to. -/
def absorb (i : Nat) (c : Connection be) : Bearer.Progress be → Connection be
  | (bearer, .pending wait) => { c with bearer }.place i (.acting wait)
  | (bearer, .ready result) => { c with bearer }.conclude i result

/-- Begin a deed. -/
def begin (i : Nat) (deed : Deed) (c : Connection be) : Connection be :=
  match deed with
  | .act action => c.absorb i (c.bearer.call be action)
  | .line line => (c.onBench (·.emit line)).conclude i (.ok ())
  | .look => c.conclude i (.ok ())

/-- A party's turn. -/
def pollParty (i : Nat) (c : Connection be) : Connection be :=
  match c.parties[i]? with
  | some (.waiting timer deed) =>
    match timer.poll c.bench.now with
    | .pending timer => c.place i (.waiting timer deed)
    | .ready () => (c.enter i).begin i deed
  | some (.acting wait) => c.absorb i (c.bearer.resume be wait)
  | _ => c

/-- The turn of the party that ends it all. -/
def pollClosing (c : Connection be) : Connection be :=
  match c.closing.map (Timer.poll · c.bench.now) with
  | some (.pending timer) => { c with closing := some timer }
  | _ => { c with closing := none }

/-- The turn of the party that carries pending disconnects out. -/
def pollExecutor (c : Connection be) : Connection be :=
  match c.executor with
  | none => c
  | some executor =>
    let (bearer, executor) := executor.poll be c.bearer
    { c with bearer, executor := some executor }

/-- How many codes a ticket's holder can come to read before time passes: those that it has not read
and those that the script may still bring, and one more look to find none left. -/
def readable (b : Bench) (ticket : Nat) : Nat :=
  (b.board.unread ticket).length
    + (b.script.map fun turn => turn.before.length + turn.after.length).foldl (· + ·) 0 + 1

/-- The turn of the party that listens. -/
def pollListener (c : Connection be) : Connection be :=
  match c.listener with
  | none => c
  | some (ticket, listener) =>
    let (bearer, listener) :=
      listener.poll be Mounted.board ticket (fun b => readable b.vendor.bench ticket) c.bearer
    { c with bearer, listener := some (ticket, listener) }

/-- What a party may be waiting for, timers apart. -/
structure Signals where
  status : BearerStatus
  cancelled : Bool
  locked : Bool
  deferrals : Debouncer × Debouncer
  board : Board Urc
  deriving DecidableEq

/-- What a party may be waiting for, timers apart. -/
def signals (c : Connection be) : Signals :=
  { status := c.bearer.status, cancelled := c.bearer.cancelled, locked := c.bearer.locked,
    deferrals := (c.bearer.threeGpp, c.bearer.cdma), board := c.bench.board }

/-- When the timers of all parties expire. -/
def timers (c : Connection be) : List Nat :=
  (c.closing.map Timer.expiresAt).toList
    ++ c.parties.toList.flatMap (Party.timers be.timers)
    ++ c.executor.toList.flatMap (Executor.timers be)
    ++ c.listener.toList.flatMap (Listener.timers be ·.2)

/-- The end first, then the parties in order, the pending disconnects, and the listener. -/
def schedule (parties : Nat) : Schedule (Connection be) Signals where
  tasks := pollClosing :: (List.range parties).map pollParty ++ [pollExecutor, pollListener]
  signals := signals
  timers := timers
  now c := c.bench.now
  setNow now := onBench fun b => { b with now }
  isOver c := c.closing.isNone

/-- What belongs to a connection besides its vendor. -/
structure Setting where
  /-- When it ends. -/
  closing : Nat
  /-- The deeds and their moments. -/
  deeds : List (Nat × Deed)
  /-- Whether pending disconnects are carried out. -/
  executes : Bool := true
  /-- Whether unsolicited codes are listened to. -/
  listens : Bool := false

/-- A connection at its beginning.  The token is the bearer's own and out of the script's reach. -/
def start (be : Backend (Mounted ν)) (config : Config) (setting : Setting) (script : List Turn)
    (part : ν) : Connection be :=
  let bench : Bench := { script := script.map fun turn => { turn with cancels := false } }
  let (bench, seat) := if setting.listens then bench.subscribe else (bench, none)
  { bearer := .start config.allowRoaming config.mixed config.timing.deferredUnregistration
      { bench, part }
    closing := some (.due setting.closing)
    parties := (setting.deeds.map fun (moment, deed) => .waiting (.due moment) deed).toArray
    executor := if setting.executes then some (.watching .idle .idle) else none
    listener := seat.map fun ticket => (ticket, .listening) }

/-- Run a connection from time 0 on, for at most `rounds` rounds. -/
def run (rounds : Nat) (be : Backend (Mounted ν)) (config : Config) (setting : Setting)
    (script : List Turn) (part : ν) : Connection be :=
  (schedule setting.deeds.length).run rounds (start be config setting script part)

end Connection

end Cellular
