/-!
# Radio modes

Which generations of radio access a modem may use is a set of modes, kept as a 32-bit mask: circuit
switched, 2G, 3G, 4G and 5G have the lowest five bits, and the full mask stands for any mode at all.
A modem is told what is allowed and, within that, what is preferred: a `ModeCombination`.
-/

namespace Cellular

/-- A set of radio access modes. -/
structure Modes where
  /-- One bit for each mode. -/
  bits : UInt32
  deriving DecidableEq, Repr

namespace Modes

/-- No mode. -/
def none : Modes := ⟨0⟩
/-- Circuit switched service only. -/
def cs : Modes := ⟨1⟩
/-- Second generation. -/
def g2 : Modes := ⟨2⟩
/-- Third generation. -/
def g3 : Modes := ⟨4⟩
/-- Fourth generation. -/
def g4 : Modes := ⟨8⟩
/-- Fifth generation. -/
def g5 : Modes := ⟨16⟩
/-- Every mode, known or not. -/
def any : Modes := ⟨0xFFFFFFFF⟩

/-- The modes in either set. -/
def union (a b : Modes) : Modes := ⟨a.bits ||| b.bits⟩

/-- The modes in both sets. -/
def inter (a b : Modes) : Modes := ⟨a.bits &&& b.bits⟩

instance : OrOp Modes := ⟨union⟩
instance : AndOp Modes := ⟨inter⟩

/-- Whether every mode of `b` is in `a`. -/
def contains (a b : Modes) : Bool := a.bits &&& b.bits == b.bits

/-- Whether the set is empty. -/
def isNone (a : Modes) : Bool := a.bits == 0

/-- The modes that have a name, in the order they are written. -/
def named : List (Modes × String) :=
  [(cs, "cs"), (g2, "2g"), (g3, "3g"), (g4, "4g"), (g5, "5g")]

/-- The set in words: `any`, `none`, or the names of its modes with commas between them. -/
def describe (a : Modes) : String :=
  if a = any then "any"
  else if a.isNone then "none"
  else ", ".intercalate ((named.filter fun m => a.contains m.1).map Prod.snd)

end Modes

/-- What a modem may use, and which of that it should use where it can. -/
structure ModeCombination where
  allowed : Modes
  preferred : Modes
  deriving DecidableEq, Repr

namespace ModeCombination

/-- The combination without a preference. -/
def only (allowed : Modes) : ModeCombination := ⟨allowed, Modes.none⟩

/-- How many combinations a list of supported ones holds. -/
def listCapacity : Nat := 8

/-- The combinations a vendor lists whose allowed modes lie within one that the generic modem
reports, in the vendor's order. -/
def filterSupported (generic vendor : List ModeCombination) : List ModeCombination :=
  (vendor.filter fun m => generic.any (·.allowed.contains m.allowed)).take listCapacity

end ModeCombination

end Cellular
