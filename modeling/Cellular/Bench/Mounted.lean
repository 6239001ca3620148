import Cellular.Bench.Flight
import Cellular.Bearer.Listener
import Cellular.Procedure.Operation
import Cellular.Vendor.Samsung
import Cellular.Vendor.Xmm
/-!
# Vendors' bearers on a bench

What a vendor does to bring a connection up and down is an operation on a state of its own.  Mounted
on a bench, the two operations make a backend: a call is the operation in flight.  The state changes
when the call is over.  The token that a call looks at is the bearer's.
-/

namespace Cellular

/-- A vendor's state `ν` and the bench it is mounted on. -/
structure Mounted (ν : Type) where
  bench : Bench
  part : ν

namespace Mounted

variable {ν : Type}

/-- The bench's board is the one that unsolicited codes are read from. -/
def board : BoardIn (Mounted ν) where
  get m := m.bench.board
  set board m := { m with bench := { m.bench with board } }

/-- The operation on the vendor's state, about to start. -/
def launch (m : Mounted ν) (op : Operation ν Unit) : Flight (Except Error Unit × ν) :=
  .start (op.run.run m.part)

/-- Poll an operation in flight. -/
def pollFlight (cancelled : Bool) (flight : Flight (Except Error Unit × ν)) (m : Mounted ν) :
    Mounted ν × Poll (Flight (Except Error Unit × ν)) (Except Error Unit) :=
  match flight.poll { m.bench with cancelled } with
  | (bench, .pending flight) => ({ m with bench }, .pending flight)
  | (bench, .ready (result, part)) => ({ bench, part }, .ready result)

/-- The backend that two operations make. -/
def backend (connect disconnect : Operation ν Unit) : Backend (Mounted ν) where
  Call := Flight (Except Error Unit × ν)
  connect m := m.launch connect
  disconnect m := m.launch disconnect
  poll := pollFlight
  timers := Flight.timers
  now m := m.bench.now

end Mounted

/-- The backend of a Samsung modem. -/
def Samsung.Bearer.backend : Backend (Mounted Samsung.Bearer) :=
  Mounted.backend (discard dial) disconnect

/-- The backend of an XMM modem. -/
def Xmm.Bearer.backend : Backend (Mounted Xmm.Bearer) := Mounted.backend dial disconnect

end Cellular
