import Cellular.Grammar.Positional
/-!
# Registration reports

`<stat>[,<lac>,<ci>[,<AcT>]]`, as `+CREG`, `+CGREG` and `+CEREG` report it.
-/

namespace Cellular

/-- A registration report. -/
structure RegistrationReport where
  stat : Nat
  lac : Option String
  ci : Option String
  act : Option Nat
  deriving DecidableEq, Repr

/-- Reads a registration report. -/
def RegistrationReport.read? (reply : Bytes) : Option RegistrationReport := do
  let (stat, c) ← (← (← Cursor.start? reply).approach false).octet
  let (lac, c) ← (← c.approach false).optional (Cursor.string 8)
  let (ci, c) ← (← c.approach false).optional (Cursor.string 16)
  let (act, c) ← (← c.approach true).optional Cursor.octet
  if c.atEnd then some { stat, lac, ci, act } else none

end Cellular
