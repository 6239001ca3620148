import Cellular.Bearer.Basic
/-!
# Pending disconnects

One party waits, for as long as the bearer lives, for one of the two pending disconnects to be due,
and then forces the bearer down.  The 3GPP domain is looked at first.
-/

namespace Cellular

/-- The party that carries pending disconnects out. -/
inductive Executor (ν : Type) where
  /-- Waiting for either of them to be due. -/
  | watching (threeGpp cdma : Debouncer.Sleeper)
  /-- Forcing the bearer down. -/
  | forcing (wait : ActionWait ν)

namespace Executor

variable {σ : Type} (be : Backend σ)

/-- When the timers of the party expire. -/
def timers : Executor be.Call → List Nat
  | .watching threeGpp cdma => threeGpp.timers ++ cdma.timers
  | .forcing wait => wait.timers be.timers

/-- Begin to wait for either pending disconnect. -/
def watch (b : Bearer σ) : Executor be.Call := .watching b.threeGpp.settle b.cdma.settle

/-- Force the bearer down, and begin to wait again once that is over. -/
def afterForce : Bearer.Progress be → Bearer σ × Executor be.Call
  | (b, .pending wait) => (b, .forcing wait)
  | (b, .ready _) => (b, watch be b)

/-- Poll the party. -/
def poll (b : Bearer σ) : Executor be.Call → Bearer σ × Executor be.Call
  | .forcing wait => afterForce be (b.resume be wait)
  | .watching threeGpp cdma =>
    let now := be.now b.vendor
    match b.threeGpp.pollExpired now threeGpp with
    | (deferral, .ready ()) =>
      afterForce be (({ b with threeGpp := deferral }.note (.expired .threeGpp)).force be)
    | (deferral, .pending threeGpp) =>
      let b := { b with threeGpp := deferral }
      match b.cdma.pollExpired now cdma with
      | (deferral, .ready ()) =>
        afterForce be (({ b with cdma := deferral }.note (.expired .cdma)).force be)
      | (deferral, .pending cdma) => ({ b with cdma := deferral }, .watching threeGpp cdma)

end Executor

end Cellular
