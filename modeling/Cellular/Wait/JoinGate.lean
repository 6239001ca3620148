/-!
# Joining two signals

A `JoinGate` opens once, when a reply and a notification are both there, whichever came first.  The
first of each kind counts.  A gate that has opened, or was given up before, stays shut from then on.
-/

namespace Cellular

/-- A gate that a reply and a notification open together. -/
structure JoinGate (ρ ν : Type) where
  reply : Option ρ := none
  notification : Option ν := none
  consumed : Bool := false
  deriving DecidableEq, Repr

namespace JoinGate

variable {ρ ν : Type}

/-- Open the gate if both signals are there. -/
def tryComplete (g : JoinGate ρ ν) : JoinGate ρ ν × Option (ρ × ν) :=
  if g.consumed then (g, none)
  else match g.reply, g.notification with
    | some r, some n => ({ consumed := true }, some (r, n))
    | _, _ => (g, none)

/-- Record the reply, unless there is one. -/
def markReply (g : JoinGate ρ ν) (r : ρ) : JoinGate ρ ν × Option (ρ × ν) :=
  if !g.consumed && g.reply.isNone then { g with reply := some r }.tryComplete else g.tryComplete

/-- Record the notification, unless there is one. -/
def markNotification (g : JoinGate ρ ν) (n : ν) : JoinGate ρ ν × Option (ρ × ν) :=
  if !g.consumed && g.notification.isNone then { g with notification := some n }.tryComplete
  else g.tryComplete

/-- Give the gate up.  The answer is `false` when it has opened or was given up before. -/
def expire (g : JoinGate ρ ν) : JoinGate ρ ν × Bool :=
  if g.consumed then (g, false) else ({ consumed := true }, true)

end JoinGate

end Cellular
