import Cellular.Bench.Mounted
import Cellular.Proofs.Bearer.Pact
import Cellular.Proofs.Bench.Bystander
/-!
# Books on a bench that a bearer is mounted on

Where a bearer is brought up and down by operations on a bench, and those use seats of their own,
books on the bench are kept by everyone who acts on the bearer, in any order: each vendor call goes
on to use the seats that it holds, whenever it is polled, and has none left when it is over.  That
is a pact (`Mounted.books_honoured`), so every way to act on a bearer keeps it up.

The books may be closed and others opened between two actions (`Bearer.Shared.rebook`).  So they can
tell of somebody who reads codes while vendor calls are suspended.

That books may be exchanged is what makes them useful beside a reader: what the reader has read
changes with every code that it reads, and books that tell of it are other books then.  Between two
actions this is in order as long as the new books are right for the seats that are held at the
moment, and these are known, since there is one vendor call at most.
-/

namespace Cellular

variable {ν : Type} {connect disconnect : Operation ν Unit}

/-- Books are right, and the vendor call that is under way goes on to use seats of its own. -/
def Mounted.books (connect disconnect : Operation ν Unit) (J : List Nat → Bench → Prop) :
    (Mounted.backend connect disconnect).Pact where
  idle _ m := J [] m.bench
  busy _ flight _ m := ∃ held, Flight.KeepsTo held flight ∧ J held m.bench

/-- An operation uses seats of its own, whatever state it begins in. -/
def Operation.KeepsToItself (op : Operation ν Unit) : Prop := ∀ part, (op.run.run part).KeepsTo []

section

variable {J J' : List Nat → Bench → Prop}

/-- What is true while some seats are held is true while none is. -/
def Forgiving (J : List Nat → Bench → Prop) : Prop := ∀ {held b}, J held b → J [] b

/-- A vendor call that is polled goes on to keep the books, or is over and holds no seat. -/
theorem Mounted.books_keptUp (hJ : Stewardship J) (hforgiving : Forgiving J) {errand : Errand}
    {es : List BearerEvent} {held : List Nat} {flight : Flight (Except Error Unit × ν)}
    {m : Mounted ν} (cancelled : Bool) (hflight : flight.KeepsTo held) (hm : J held m.bench) :
    (books connect disconnect J).KeptUp errand es (pollFlight cancelled flight m) := by
  have hbench : J held { m.bench with cancelled } := (hJ.published held).frame hm rfl rfl
  have hpoll := (Flight.Abides.poll_on hJ hflight hbench).1
  unfold pollFlight
  rcases heq : flight.poll { m.bench with cancelled } with ⟨b, flight' | ⟨result, part⟩⟩ <;>
    rw [heq] at hpoll
  · exact hpoll
  · obtain ⟨held', -, hheld'⟩ := hpoll
    exact hforgiving hheld'

/-- **Operations that use seats of their own keep books**, whoever begins and polls them. -/
theorem Mounted.books_honoured (hJ : Stewardship J) (hforgiving : Forgiving J)
    (hconnect : connect.KeepsToItself) (hdisconnect : disconnect.KeepsToItself) :
    (books connect disconnect J).Honoured fun m m' => ∀ held, J held m.bench → J held m'.bench where
  aside {call? _ _ _} _ h := by
    cases call? <;> exact h
  drift {call? _ _ _} hdrift h := by
    cases call? with
    | none => exact hdrift [] h
    | some call =>
      obtain ⟨held, hflight, hheld⟩ := h
      exact ⟨held, hflight, hdrift held hheld⟩
  connect {_ m} cancelled h := by
    have hlaunch : (m.launch connect).KeepsTo [] := hconnect m.part
    exact books_keptUp hJ hforgiving cancelled hlaunch h
  disconnect {_ _ m} cancelled _ h := by
    have hlaunch : (m.launch disconnect).KeepsTo [] := hdisconnect m.part
    exact books_keptUp hJ hforgiving cancelled hlaunch h
  poll {_ _ _ _} cancelled h := by
    obtain ⟨held, hflight, hheld⟩ := h
    exact books_keptUp hJ hforgiving cancelled hflight hheld

namespace Bearer

variable {b : Bearer (Mounted ν)}
  {waits : List (ActionWait (Mounted.backend connect disconnect).Call)} {m : Mounted ν}

/-- Something happens on the bench between two actions, and other books are right from then on. -/
theorem Shared.rebook (h : b.Shared (Mounted.books connect disconnect J) waits)
    (hm : ∀ held, J held b.vendor.bench → J' held m.bench) :
    { b with vendor := m }.Shared (Mounted.books connect disconnect J') waits := by
  obtain ⟨call?, ⟨hstands, hlocked⟩, hwaits⟩ := h
  refine ⟨call?, ⟨?_, hlocked⟩, hwaits⟩
  cases call? with
  | none => exact hm [] hstands
  | some call =>
    obtain ⟨held, hflight, hheld⟩ := hstands
    exact ⟨held, hflight, hm held hheld⟩

/-- The books are right for the seats that are held at the moment. -/
theorem Shared.booked (h : b.Shared (Mounted.books connect disconnect J) waits) :
    ∃ held, J held b.vendor.bench := by
  obtain ⟨call?, ⟨hstands, -⟩, -⟩ := h
  cases call? with
  | none => exact ⟨[], hstands⟩
  | some call =>
    obtain ⟨held, -, hheld⟩ := hstands
    exact ⟨held, hheld⟩

end Bearer

end

end Cellular
