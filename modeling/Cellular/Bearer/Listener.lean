import Cellular.Bearer.Basic
import Cellular.Unsolicited.Board
import Cellular.Unsolicited.Code
/-!
# Registration codes and the bearer

One party reads every unsolicited code from a seat of its own and hands the registration codes to
the bearer, one after another.  While a code makes the bearer disconnect, the codes behind it wait.
-/

namespace Cellular

/-- Where a vendor's state keeps the board of unsolicited codes. -/
structure BoardIn (σ : Type) where
  get : σ → Board Urc
  set : Board Urc → σ → σ

/-- The party that hands registration codes to a bearer. -/
inductive Listener (ν : Type) where
  /-- Waiting for a code. -/
  | listening
  /-- Waiting for the bearer to deal with a code. -/
  | applying (wait : ActionWait ν)

namespace Listener

variable {σ : Type} (be : Backend σ) (place : BoardIn σ) (ticket : Nat)

/-- When the timers of the party expire. -/
def timers : Listener be.Call → List Nat
  | .listening => []
  | .applying wait => wait.timers be.timers

/-- Read codes and hand them over for as long as nothing has to be waited for, at most so many. -/
def read : Nat → Bearer σ → Bearer σ × Listener be.Call
  | 0, b => (b, .listening)
  | n + 1, b =>
    match (place.get b.vendor).next ticket with
    | (none, _) => (b, .listening)
    | (some code, board) =>
      let b := { b with vendor := place.set board b.vendor }
      match code.registration? with
      | none => read n b
      | some status =>
        match b.call be (.registered status) with
        | (b, .pending wait) => (b, .applying wait)
        | (b, .ready _) => read n b

/-- Poll the party.  Where it has its turn to read, `most` says how many codes it reads at most. -/
def poll (most : Bearer σ → Nat) (b : Bearer σ) : Listener be.Call → Bearer σ × Listener be.Call
  | .listening => read be place ticket (most b) b
  | .applying wait =>
    match b.resume be wait with
    | (b, .pending wait) => (b, .applying wait)
    | (b, .ready _) => read be place ticket (most b) b

end Listener

end Cellular
