/-!
# Access technologies and capabilities

Two masks that a modem reports: the access technology in use at the moment, and the families of
technology that it is capable of.
-/

namespace Cellular

/-- The access technologies in use. -/
structure AccessTechnology where
  /-- One bit for each technology. -/
  bits : UInt32
  deriving DecidableEq, Repr

namespace AccessTechnology

/-- Nothing known. -/
def unknown : AccessTechnology := ⟨0⟩
/-- GSM. -/
def gsm : AccessTechnology := ⟨2⟩
/-- GPRS. -/
def gprs : AccessTechnology := ⟨8⟩
/-- EDGE. -/
def edge : AccessTechnology := ⟨16⟩
/-- UMTS. -/
def umts : AccessTechnology := ⟨32⟩
/-- HSDPA. -/
def hsdpa : AccessTechnology := ⟨64⟩
/-- HSUPA. -/
def hsupa : AccessTechnology := ⟨128⟩
/-- HSPA. -/
def hspa : AccessTechnology := ⟨256⟩
/-- LTE. -/
def lte : AccessTechnology := ⟨16384⟩

/-- The technologies in either set. -/
def union (a b : AccessTechnology) : AccessTechnology := ⟨a.bits ||| b.bits⟩

instance : OrOp AccessTechnology := ⟨union⟩

end AccessTechnology

/-- Families of radio technology that a modem is capable of. -/
structure Capability where
  /-- One bit for each family. -/
  bits : UInt32
  deriving DecidableEq, Repr

namespace Capability

/-- No family. -/
def none : Capability := ⟨0⟩
/-- GSM and UMTS. -/
def gsmUmts : Capability := ⟨4⟩
/-- LTE. -/
def lte : Capability := ⟨8⟩

/-- The families in either set. -/
def union (a b : Capability) : Capability := ⟨a.bits ||| b.bits⟩

instance : OrOp Capability := ⟨union⟩

/-- Whether every family of `a` is in `b`. -/
def isSubsetOf (a b : Capability) : Bool := a.bits &&& b.bits == a.bits

end Capability

end Cellular
