import Cellular.Wait.JoinGate
import Cellular.Wait.Poll
import Cellular.Error
/-!
# Waiting for two signals

A command may be complete only when both its reply and an unsolicited notification are there, in
either order, and all of it within a bound.  `Join` is that wait: a gate with two waits to feed it
and a deadline.

The waits are polled in the order reply, notification, deadline.  Each is polled until it is over
and not after; whenever one of them is over and the gate stays shut, polling starts again from the
reply.  At most two passes can end that way, so three passes are enough for a poll.
-/

namespace Cellular

/-- What a failed reply does to the wait. -/
inductive ReplyPolicy where
  /-- It ends the wait at once. -/
  | failFast
  /-- It is recorded like any other reply. -/
  | awaitNotification
  deriving DecidableEq, Repr

/-- A wait for a reply and a notification.  `ι` and `κ` are the states of the two waits. -/
structure Join (ι κ ρ ν : Type) where
  /-- The wait for the reply, until it is over. -/
  reply : Option ι
  /-- The wait for the notification, until it is over. -/
  notification : Option κ
  /-- The bound. -/
  deadline : Timer
  /-- What has arrived. -/
  gate : JoinGate (Except Error ρ) ν := {}

namespace Join

variable {σ ι κ ρ ν : Type}

/-- How a wait ends: both signals, or an error. -/
abbrev Outcome (ρ ν : Type) := Except Error (Except Error ρ × ν)

/-- The terms of a wait. -/
structure Terms where
  policy : ReplyPolicy
  limit : Nat
  message : String
  deriving DecidableEq, Repr

/-- The waits whose signals are joined, as machines over a common state. -/
structure Signals (σ ι κ ρ ν : Type) where
  reply : ι → σ → σ × Poll ι (Except Error ρ)
  notification : κ → σ → σ × Poll κ ν
  now : σ → Nat

/-- What one pass over the three waits leads to. -/
inductive Pass (ι κ ρ ν : Type) where
  /-- The whole wait is over. -/
  | ended (outcome : Outcome ρ ν)
  /-- One signal came; polling starts again from the reply. -/
  | again (join : Join ι κ ρ ν)
  /-- Nothing came. -/
  | blocked (join : Join ι κ ρ ν)

/-- The wait at its beginning. -/
def start (terms : Terms) (now : Nat) (reply : ι) (notification : κ) : Join ι κ ρ ν :=
  { reply := some reply, notification := some notification, deadline := .after now terms.limit }

/-- Take in a reply. -/
def onReply (terms : Terms) (j : Join ι κ ρ ν) (r : Except Error ρ) : Pass ι κ ρ ν :=
  match terms.policy, r with
  | .failFast, .error e => .ended (.error e)
  | _, r =>
    match j.gate.markReply r with
    | (_, some both) => .ended (.ok both)
    | (gate, none) => .again { j with reply := none, gate }

/-- Take in a notification. -/
def onNotification (j : Join ι κ ρ ν) (n : ν) : Pass ι κ ρ ν :=
  match j.gate.markNotification n with
  | (_, some both) => .ended (.ok both)
  | (gate, none) => .again { j with notification := none, gate }

/-- Poll the deadline. -/
def passDeadline (terms : Terms) (now : Nat) (j : Join ι κ ρ ν) : Pass ι κ ρ ν :=
  match j.deadline.poll now with
  | .ready () => .ended (.error (.operationTimeout terms.message))
  | .pending deadline => .blocked { j with deadline }

/-- Poll the notification, then the deadline. -/
def passNotification (terms : Terms) (signals : Signals σ ι κ ρ ν) (j : Join ι κ ρ ν) (s : σ) :
    σ × Pass ι κ ρ ν :=
  match j.notification with
  | none => (s, j.passDeadline terms (signals.now s))
  | some wait =>
    match signals.notification wait s with
    | (s, .ready n) => (s, j.onNotification n)
    | (s, .pending wait) =>
      (s, { j with notification := some wait }.passDeadline terms (signals.now s))

/-- Poll the reply, then the notification, then the deadline, up to the first that is over. -/
def pass (terms : Terms) (signals : Signals σ ι κ ρ ν) (j : Join ι κ ρ ν) (s : σ) :
    σ × Pass ι κ ρ ν :=
  match j.reply with
  | none => j.passNotification terms signals s
  | some wait =>
    match signals.reply wait s with
    | (s, .ready r) => (s, j.onReply terms r)
    | (s, .pending wait) => { j with reply := some wait }.passNotification terms signals s

/-- At most so many passes. -/
def passes (terms : Terms) (signals : Signals σ ι κ ρ ν) :
    Nat → Join ι κ ρ ν → σ → σ × Poll (Join ι κ ρ ν) (Outcome ρ ν)
  | 0, j, s => (s, .pending j)
  | n + 1, j, s =>
    match j.pass terms signals s with
    | (s, .ended outcome) => (s, .ready outcome)
    | (s, .blocked j) => (s, .pending j)
    | (s, .again j) => passes terms signals n j s

/-- Poll the wait. -/
def poll (terms : Terms) (signals : Signals σ ι κ ρ ν) (j : Join ι κ ρ ν) (s : σ) :
    σ × Poll (Join ι κ ρ ν) (Outcome ρ ν) :=
  passes terms signals 3 j s

end Join

end Cellular
