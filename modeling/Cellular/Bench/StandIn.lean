import Cellular.Bench.Mounted
/-!
# Stand-ins for a vendor

To try out a bearer alone one puts a stand-in in the vendor's place.  It follows two scripts, one
for connects and one for disconnects, with one item for each call; a call without an item succeeds
at once.
-/

namespace Cellular

/-- What a stand-in does on one call. -/
structure Cue where
  /-- How long it takes, if it takes time at all. -/
  delay : Option Nat := none
  /-- Whether it then waits to be cancelled. -/
  untilCancelled : Bool := false
  /-- How it fails, if it does. -/
  fault : Option Error := none
  /-- Whether it succeeds although it was cancelled. -/
  ignoresToken : Bool := false

/-- The calls to come. -/
structure StandIn where
  connects : List Cue := []
  disconnects : List Cue := []

namespace StandIn

/-- Where a call to a stand-in stands. -/
inductive Call where
  | connect
  | disconnect
  | pausing (timer : Timer) (cue : Cue)
  | holding (cue : Cue)

/-- How a call ends. -/
def outcome (cancelled : Bool) (cue : Cue) : Except Error Unit :=
  match cue.fault with
  | some e => .error e
  | none => if cancelled && !cue.ignoresToken then .error .cancelled else .ok ()

/-- Poll the wait to be cancelled, if there is one. -/
def pollHold (cancelled : Bool) (cue : Cue) : Poll Call (Except Error Unit) :=
  if cue.untilCancelled && !cancelled then .pending (.holding cue)
  else .ready (outcome cancelled cue)

/-- Poll the time that a call takes. -/
def pollPause (now : Nat) (cancelled : Bool) (timer : Timer) (cue : Cue) :
    Poll Call (Except Error Unit) :=
  match timer.poll now with
  | .pending timer => .pending (.pausing timer cue)
  | .ready () => pollHold cancelled cue

/-- Begin to follow an item. -/
def begin (now : Nat) (cancelled : Bool) (cue : Cue) : Poll Call (Except Error Unit) :=
  match cue.delay with
  | some span => pollPause now cancelled (.after now span) cue
  | none => pollHold cancelled cue

/-- The first item of a script and the rest of it. -/
def draw : List Cue → Cue × List Cue
  | [] => ({}, [])
  | cue :: cues => (cue, cues)

/-- Poll a call.  A disconnect does not look at the token. -/
def poll (cancelled : Bool) (call : Call) (m : Mounted StandIn) :
    Mounted StandIn × Poll Call (Except Error Unit) :=
  match call with
  | .connect =>
    let (cue, connects) := draw m.part.connects
    ({ bench := m.bench.note .connect, part := { m.part with connects } },
      begin m.bench.now cancelled cue)
  | .disconnect =>
    let (cue, disconnects) := draw m.part.disconnects
    ({ bench := m.bench.note .disconnect, part := { m.part with disconnects } },
      begin m.bench.now cancelled { cue with untilCancelled := false, ignoresToken := true })
  | .pausing timer cue => (m, pollPause m.bench.now cancelled timer cue)
  | .holding cue => (m, pollHold cancelled cue)

/-- When the timer of a call expires. -/
def timers : Call → List Nat
  | .pausing timer _ => [timer.expiresAt]
  | _ => []

/-- The backend of a stand-in. -/
def backend : Backend (Mounted StandIn) where
  Call := Call
  connect _ := .connect
  disconnect _ := .disconnect
  poll := poll
  timers := timers
  now m := m.bench.now

end StandIn

end Cellular
