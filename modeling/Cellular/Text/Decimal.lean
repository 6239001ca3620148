import Cellular.Text.Bytes
/-!
# Decimal numbers

Two readings of a decimal number are in use.  Inside a line, `scan` takes as many digits as there
are and leaves the rest.  A text that has to be a number as a whole is read by `whole?`, which also
accepts one plus sign in front.  Both refuse a number that does not fit below the bound given, and
both accept leading zeros.  `digits` writes a number in its shortest form.
-/

namespace Cellular.Decimal

/-- Numbers below this bound fit in 32 bits. -/
def word32 : Nat := 4294967296

/-- Numbers below this bound fit in one octet. -/
def octet : Nat := 256

/-- The number that a list of digits stands for, continuing from `acc`. -/
def valueFrom (acc : Nat) (ds : Bytes) : Nat :=
  ds.foldl (fun acc d => acc * 10 + Bytes.digitValue d) acc

/-- The number that a list of digits stands for. -/
def value (ds : Bytes) : Nat := valueFrom 0 ds

/-- The number that a list of digits stands for, continuing from `acc`, given up at the first digit
with which it is no longer below `bound`. -/
def belowFrom (bound acc : Nat) : Bytes → Option Nat
  | [] => some acc
  | d :: ds =>
    let n := acc * 10 + Bytes.digitValue d
    if n < bound then belowFrom bound n ds else none

theorem le_valueFrom (acc : Nat) (ds : Bytes) : acc ≤ valueFrom acc ds := by
  induction ds generalizing acc with
  | nil => exact Nat.le_refl acc
  | cons d ds ih =>
    have h : acc * 10 + Bytes.digitValue d ≤ valueFrom acc (d :: ds) := ih _
    omega

/-- Giving up early loses nothing: more digits never make a number smaller. -/
theorem belowFrom_eq {bound acc : Nat} (h : acc < bound) (ds : Bytes) :
    belowFrom bound acc ds = if valueFrom acc ds < bound then some (valueFrom acc ds)
      else none := by
  induction ds generalizing acc with
  | nil => exact (if_pos h).symm
  | cons d ds ih =>
    have step : valueFrom acc (d :: ds) = valueFrom (acc * 10 + Bytes.digitValue d) ds := rfl
    have larger := le_valueFrom (acc * 10 + Bytes.digitValue d) ds
    by_cases hn : acc * 10 + Bytes.digitValue d < bound
    · rw [belowFrom, if_pos hn, ih hn, step]
    · rw [belowFrom, if_neg hn, step, if_neg (by omega)]

/-- The digits in front, as a number below `bound`, and what follows them. -/
def scan (bound : Nat) (bs : Bytes) : Option (Nat × Bytes) :=
  match bs.takeWhile Bytes.isDigit with
  | [] => none
  | ds => (belowFrom bound 0 ds).map fun n => (n, bs.dropWhile Bytes.isDigit)

/-- The list without a plus sign in front, if it has one. -/
def dropPlus : Bytes → Bytes
  | 43 :: rest => rest
  | bs => bs

/-- The number below `bound` that the list is as a whole: at least one digit and nothing else,
after an optional plus sign. -/
def whole? (bound : Nat) (bs : Bytes) : Option Nat :=
  match scan bound (dropPlus bs) with
  | some (n, []) => some n
  | _ => none

/-- The number as digits, without leading zeros. -/
def digits (n : Nat) : Bytes := Bytes.ofChars (Nat.toDigits 10 n)

example : scan word32 (Bytes.ofString "007,1") = some (7, Bytes.ofString ",1") := by decide +kernel
example : scan word32 (Bytes.ofString "4294967296") = none := by decide +kernel
example : whole? octet (Bytes.ofString "+255") = some 255 := by decide +kernel
example : whole? octet (Bytes.ofString "+") = none := by decide +kernel
example : digits 4294967295 = Bytes.ofString "4294967295" := by decide +kernel

end Cellular.Decimal
