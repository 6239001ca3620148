/-!
# Optional features

Whether a modem has a vendor extension is found out once, by a query, and remembered.  Any failure
of the query counts as not having the feature; so does a modem without a port to use it on, which
needs no query.
-/

namespace Cellular

/-- Whether a modem has an optional feature, as far as is known.  It is not known at first. -/
inductive Feature where
  /-- Not known yet. -/
  | unknown
  /-- It has. -/
  | supported
  /-- It has not. -/
  | notSupported
  deriving DecidableEq, Repr

namespace Feature

variable {m : Type → Type} {ε α : Type}

/-- Whether the modem is known to have the feature. -/
def isSupported (f : Feature) : Bool := f = supported

/-- What is known once a query has ended so. -/
def ofQuery : Except ε α → Feature
  | .ok _ => supported
  | .error _ => notSupported

/-- Find out whether the modem has the feature, by a query if that is not known yet.  The value is
that of a query that ran just now and succeeded. -/
def resolveValue [Monad m] (f : Feature) (query : m (Except ε α)) : m (Option α × Feature) :=
  match f with
  | unknown => do
    let outcome ← query
    return (outcome.toOption, ofQuery outcome)
  | known => return (none, known)

/-- Find out whether the modem has the feature, by a query if that is not known yet. -/
def resolve [Monad m] (f : Feature) (query : m (Except ε α)) : m Feature := do
  return (← f.resolveValue query).2

/-- Without a port to use it on, a feature that is not known is not there. -/
def resolveWithoutPort : Feature → Feature
  | unknown => notSupported
  | known => known

end Feature

end Cellular
