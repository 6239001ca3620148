/-!
# Frequency bands

The bands that the vendors' band tables know, and `any` for a request of every band there is.
A list of bands is kept in room for sixteen.
-/

namespace Cellular

/-- A frequency band. -/
inductive Band where
  /-- GSM 900, extended. -/
  | egsm
  /-- GSM 1800. -/
  | dcs
  /-- GSM 1900. -/
  | pcs
  /-- GSM 850. -/
  | g850
  /-- UTRAN band I. -/
  | u2100
  /-- UTRAN band II. -/
  | u1900
  /-- UTRAN band III. -/
  | u1800
  /-- UTRAN band IV. -/
  | u17iv
  /-- UTRAN band V. -/
  | u850
  /-- UTRAN band VI. -/
  | u800
  /-- UTRAN band VIII. -/
  | u900
  /-- Whatever the modem supports. -/
  | any
  deriving DecidableEq, Repr

namespace Band

/-- The bands and their names, in order. -/
def names : List (Band × String) :=
  [(egsm, "Egsm"), (dcs, "Dcs"), (pcs, "Pcs"), (g850, "G850"), (u2100, "U2100"),
    (u1900, "U1900"), (u1800, "U1800"), (u17iv, "U17iv"), (u850, "U850"), (u800, "U800"),
    (u900, "U900"), (any, "Any")]

/-- The name of a band. -/
def name : Band → String
  | egsm => "Egsm"
  | dcs => "Dcs"
  | pcs => "Pcs"
  | g850 => "G850"
  | u2100 => "U2100"
  | u1900 => "U1900"
  | u1800 => "U1800"
  | u17iv => "U17iv"
  | u850 => "U850"
  | u800 => "U800"
  | u900 => "U900"
  | any => "Any"

/-- The band of a name. -/
def ofName? (name : String) : Option Band :=
  (names.find? (·.2 = name)).map Prod.fst

theorem ofName?_name (b : Band) : ofName? b.name = some b := by
  cases b <;> decide +kernel

/-- How many bands a list of bands holds. -/
def listCapacity : Nat := 16

end Band

end Cellular
