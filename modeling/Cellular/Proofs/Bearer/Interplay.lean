import Cellular.Bearer.Deferral
/-!
# All that can come of many actions on one bearer

Any number of actions are called on one bearer, at any moments, while the party that carries pending
disconnects out keeps watching.  An `Interplay` is that bearer, every action called so far and where
it stands, and that party.  A `Move` is what happens between two waits: an action is called and runs
up to its first wait, or one that waits is polled, or the party is polled, or the vendor's state
changes on its own, as when time passes or the modem speaks.

Nothing restricts the order of moves, and the vendor is any backend over any state, which a drift
may replace by any other.  So what holds after every list of moves holds in every interleaving, for
every outcome of the vendor's calls and every time they take.

A move runs whatever it starts or polls up to its next wait, and nothing comes in between.  That is
the granularity at which parties can interleave: what is not interrupted by a wait is atomic.  An
action that is over keeps its place in the list of calls, so calls can be told by their positions
whatever happens later.
-/

namespace Cellular

/-! ## Where actions stand

An action that was called has returned, or waits.  The party that carries pending disconnects out
waits in the same way while it forces the bearer down, and otherwise it only watches; its waits
are listed with those of the actions. -/

/-- Where an action that was called stands. -/
inductive CallState (ν : Type) where
  /-- At a wait. -/
  | waiting (wait : ActionWait ν)
  /-- It is over. -/
  | returned (result : Except Error Unit)

/-- Where an action stands after a poll. -/
def CallState.ofPoll {ν : Type} : Poll (ActionWait ν) (Except Error Unit) → CallState ν
  | .pending wait => .waiting wait
  | .ready result => .returned result

/-- The wait of an action that is not over. -/
def CallState.wait? {ν : Type} : CallState ν → Option (ActionWait ν)
  | .waiting wait => some wait
  | .returned _ => none

/-- The wait of the party that carries pending disconnects out, while it forces the bearer down. -/
def Executor.wait? {ν : Type} : Executor ν → Option (ActionWait ν)
  | .forcing wait => some wait
  | .watching _ _ => none

/-- The party that carries pending disconnects out stands at a wait or keeps watching. -/
theorem Executor.wait?_afterForce {σ : Type} {be : Backend σ} (r : Bearer.Progress be) :
    (Executor.afterForce be r).2.wait? = r.2.next? := by
  rcases r with ⟨b, _ | _⟩ <;> rfl

/-- Forcing the bearer down is all that the party does to it. -/
theorem Executor.bearer_afterForce {σ : Type} {be : Backend σ} (r : Bearer.Progress be) :
    (Executor.afterForce be r).1 = r.1 := by
  rcases r with ⟨b, _ | _⟩ <;> rfl

/-- What the vendor call is for that is waited for, if one is. -/
def ActionWait.errand? {ν : Type} : ActionWait ν → Option Errand
  | .vendor errand _ => some errand
  | _ => none

/-! ## Interplays

A move is what happens between two waits: an action is called, one that waits is polled, the party
looks, or the vendor's state changes on its own.  A list of moves is an interleaving, and what
every move keeps holds after all of them (`run_keeps`). -/

/-- A bearer, all actions called on it, in that order, and the party that carries pending
disconnects out. -/
structure Interplay {σ : Type} (be : Backend σ) where
  /-- The bearer. -/
  bearer : Bearer σ
  /-- The actions, and where they stand. -/
  calls : List (Action × CallState be.Call) := []
  /-- The party that carries pending disconnects out. -/
  executor : Executor be.Call := .watching .idle .idle

/-- What may happen between two waits. -/
inductive Move (σ : Type) where
  /-- An action is called. -/
  | call (action : Action)
  /-- The action called at a position is polled. -/
  | poll (i : Nat)
  /-- The party that carries pending disconnects out is polled. -/
  | watch
  /-- The vendor's state changes on its own. -/
  | drift (vendor : σ)

namespace Interplay

variable {σ : Type} {be : Backend σ}

/-- A bearer that is down and on which nobody has acted. -/
def start (be : Backend σ) (allowRoaming mixed : Bool) (grace : Nat) (vendor : σ) : Interplay be :=
  { bearer := .start allowRoaming mixed grace vendor }

/-- Let something happen.  A poll of an action that is not waiting does nothing. -/
def step (s : Interplay be) : Move σ → Interplay be
  | .call action =>
    let (bearer, poll) := s.bearer.call be action
    { s with bearer, calls := s.calls ++ [(action, .ofPoll poll)] }
  | .poll i =>
    match s.calls[i]? with
    | some (action, .waiting wait) =>
      let (bearer, poll) := s.bearer.resume be wait
      { s with bearer, calls := s.calls.set i (action, .ofPoll poll) }
    | _ => s
  | .watch =>
    let (bearer, executor) := s.executor.poll be s.bearer
    { s with bearer, executor }
  | .drift vendor => { s with bearer := { s.bearer with vendor } }

/-- Let a list of things happen, one after another. -/
def run (s : Interplay be) (moves : List (Move σ)) : Interplay be := moves.foldl step s

/-- What every move keeps, every list of moves keeps. -/
theorem run_keeps {P : Interplay be → Prop} (hstep : ∀ s m, P s → P (s.step m)) {s : Interplay be}
    (hs : P s) (moves : List (Move σ)) : P (s.run moves) := by
  induction moves generalizing s with
  | nil => exact hs
  | cons m moves ih => exact ih (hstep s m hs)

/-- Every wait that is going on. -/
def waits (s : Interplay be) : List (ActionWait be.Call) :=
  s.calls.filterMap (·.2.wait?) ++ s.executor.wait?.toList

/-- What the vendor calls are for that are under way. -/
def flights (s : Interplay be) : List Errand := s.waits.filterMap ActionWait.errand?

/-- What has happened to the bearer since an earlier moment. -/
def since (t s : Interplay be) : List BearerEvent :=
  t.bearer.history.drop s.bearer.history.length

/-- What has happened since a moment at which the history was shorter. -/
theorem since_eq {s t : Interplay be} {es : List BearerEvent}
    (h : t.bearer.history = s.bearer.history ++ es) : t.since s = es := by
  rw [since, h, List.drop_left]

end Interplay

end Cellular
