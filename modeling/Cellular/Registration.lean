/-!
# Network registration and what it forbids

A modem reports how it is registered in the 3GPP domain, and some modems also in the CDMA domain.
From these reports a `Tracker` keeps, for each domain, why a connection may not stay up there, and
says after every report what is to be done about the connection.

On a mixed modem, one with both stacks, a reason in one domain is ignored while the other domain has
none.  Roaming is forbidden only where the configuration disallows it; losing registration always
counts, but leads to a grace period rather than to an immediate disconnect.
-/

namespace Cellular

/-- How a modem is registered in the 3GPP domain. -/
inductive RegistrationStatus where
  /-- Emergency service only, or a value outside the standard range. -/
  | none
  /-- Idle, not searching. -/
  | notRegistering
  /-- Registered at home. -/
  | home
  /-- Not registered, searching. -/
  | searching
  /-- Refused by the network. -/
  | denied
  /-- Unknown, as out of coverage. -/
  | outOfCoverage
  /-- Registered while roaming. -/
  | roaming
  deriving DecidableEq, Repr

/-- The status of a reported code. Codes for short messages only and for a fallback that is not
preferred count as the registration they come with. -/
def RegistrationStatus.ofCode : Nat → RegistrationStatus
  | 0 => notRegistering
  | 1 => home
  | 2 => searching
  | 3 => denied
  | 4 => outOfCoverage
  | 5 => roaming
  | 6 => home
  | 7 => roaming
  | 9 => home
  | 10 => roaming
  | _ => none

/-- How a modem is registered for one of the CDMA services. -/
inductive CdmaState where
  | unknown
  | registered
  | home
  | roaming
  deriving DecidableEq, Repr

/-- The two worlds a modem may be registered in. -/
inductive Domain where
  | threeGpp
  | cdma
  deriving DecidableEq, Repr

/-- The domain in words. -/
def Domain.name : Domain → String
  | .threeGpp => "3GPP"
  | .cdma => "CDMA"

/-- Why a connection may not stay up in a domain. -/
inductive ForbiddenReason where
  | none
  | unregistered
  | roaming
  deriving DecidableEq, Repr

/-- The reason in words. -/
def ForbiddenReason.name : ForbiddenReason → String
  | .none => "none"
  | .unregistered => "unregistered"
  | .roaming => "roaming"

/-- What a report means for the connection. -/
inductive Verdict where
  /-- It may stay; pending disconnects are called off. -/
  | allow
  /-- It has to go at once; pending disconnects are called off. -/
  | disconnectNow
  /-- It has to go after the grace period of the domain. -/
  | unregistered (domain : Domain)
  deriving DecidableEq, Repr

/-- The reasons of both domains, and the configuration they are judged by. -/
structure Tracker where
  /-- Whether a connection may stay up while roaming. -/
  allowRoaming : Bool
  /-- Whether the modem has both stacks. -/
  mixed : Bool
  /-- The reason in the 3GPP domain. -/
  threeGpp : ForbiddenReason := .none
  /-- The reason in the CDMA domain. -/
  cdma : ForbiddenReason := .none
  deriving DecidableEq, Repr

namespace Tracker

/-- The reason in a domain. -/
def reason (t : Tracker) : Domain → ForbiddenReason
  | .threeGpp => t.threeGpp
  | .cdma => t.cdma

/-- The reason that a 3GPP status gives. -/
def reasonOf (allowRoaming : Bool) : RegistrationStatus → ForbiddenReason
  | .notRegistering | .denied | .outOfCoverage | .none => .unregistered
  | .home | .searching => .none
  | .roaming => if allowRoaming then .none else .roaming

/-- The reason that the states of the two CDMA services give together. -/
def cdmaReasonOf (allowRoaming : Bool) (cdma1x evdo : CdmaState) : ForbiddenReason :=
  if cdma1x = .roaming ∨ evdo = .roaming then
    if allowRoaming then .none else .roaming
  else if cdma1x ≠ .unknown ∨ evdo ≠ .unknown then .none
  else .unregistered

/-- What a report for `own` means, given the reasons as they are now.  `other` is the other
domain. -/
def decide (t : Tracker) (domain : Domain) (own other : ForbiddenReason) : Verdict :=
  if own = .none ∨ (t.mixed ∧ other = .none) then .allow
  else match own with
    | .roaming => .disconnectNow
    | _ => .unregistered domain

/-- Take in a 3GPP report. -/
def update3gpp (t : Tracker) (status : RegistrationStatus) : Tracker × Verdict :=
  let t := { t with threeGpp := reasonOf t.allowRoaming status }
  (t, t.decide .threeGpp t.threeGpp t.cdma)

/-- Take in a report of both CDMA services. -/
def updateCdma (t : Tracker) (cdma1x evdo : CdmaState) : Tracker × Verdict :=
  let t := { t with cdma := cdmaReasonOf t.allowRoaming cdma1x evdo }
  (t, t.decide .cdma t.cdma t.threeGpp)

end Tracker

end Cellular
