/-!
# Gosuncn modems

These modems need no commands of their own, only the right control protocol.
-/

namespace Cellular.Gosuncn

/-- The vendors whose devices are handled here. -/
def vendors : List Nat := [0x305a]

/-- The kernel drivers of their ports. -/
def drivers : List String := ["qmi_wwan", "cdc_mbim"]

/-- The kernel subsystems their ports are found in. -/
def subsystems : List String := ["tty", "net", "usb"]

/-- Whether a device of that vendor, bound to that driver, is handled here. -/
def handles (vendor : Nat) (driver : String) : Bool :=
  vendors.contains vendor && drivers.contains driver

/-- A control protocol. -/
inductive Protocol where
  /-- Qualcomm's. -/
  | qmi
  /-- The mobile broadband interface of USB. -/
  | mbim
  /-- Plain AT commands. -/
  | generic
  deriving DecidableEq, Repr

/-- The protocol to use, given which control ports were found: the first of the three there is. -/
def protocol (hasQmi hasMbim : Bool) : Protocol :=
  if hasQmi then .qmi else if hasMbim then .mbim else .generic

end Cellular.Gosuncn
