import Cellular.Feature
/-!
# Kinds of bearer

Where a vendor has a data path of its own, it is used once the modem is known to have it.
-/

namespace Cellular

/-- Which data path a new connection takes. -/
inductive BearerKind where
  | vendor
  | generic
  deriving DecidableEq, Repr

/-- The kind of bearer that the support of the vendor's data path leads to. -/
def Feature.bearerKind (f : Feature) : BearerKind := if f.isSupported then .vendor else .generic

end Cellular
