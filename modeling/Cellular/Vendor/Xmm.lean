import Cellular.Procedure.Operation
import Cellular.Command.Standard
import Cellular.Command.Xmm
/-!
# Intel XMM modems

Data runs as plain IP packets over a channel of the PCIe interface.  The IP settings are read back
through `+CGCONTRDP`.
-/

namespace Cellular.Xmm

open Operation

/-- Contexts are numbered below this. -/
def cidBound : Nat := 31

/-- The number under which a context is addressed: 0 for those without a number of their own. -/
def normalizeCid (cid : Nat) : Nat := if cidBound ≤ cid then 0 else cid

/-- The address families that a connection is for. -/
inductive Family where
  /-- IPv4. -/
  | ipv4
  /-- IPv6. -/
  | ipv6
  /-- Both. -/
  | ipv4v6
  deriving DecidableEq, Repr

/-- Whether IPv4 is one of them. -/
def Family.hasIpv4 : Family → Bool
  | .ipv6 => false
  | _ => true

/-- Whether IPv6 is one of them. -/
def Family.hasIpv6 : Family → Bool
  | .ipv4 => false
  | _ => true

/-- The IP settings of a connection, by family. -/
structure ConnectionSettings where
  /-- Those for IPv4. -/
  ipv4 : Option IpSettings := none
  /-- Those for IPv6. -/
  ipv6 : Option IpSettings := none
  deriving DecidableEq, Repr

/-- A bearer over one context. -/
structure Bearer where
  /-- The number of the context. -/
  cid : Nat
  /-- The address families. -/
  family : Family
  deriving DecidableEq, Repr

namespace Bearer

/-- The commands of a dial that may fail: requests for name servers, the format of addresses, the
activation of the context.  Context 0 needs none of them. -/
def preparations (cid : Nat) (family : Family) : List (Command Unit) :=
  if cid = 0 then []
  else (if family.hasIpv4 then [.requestDns cid 1] else [])
    ++ (if family.hasIpv6 then [.requestDns cid 2, .setIpv6Format] else [])
    ++ [.setContextState 1 (some cid)]

/-- The commands of a dial that have to succeed. -/
def essentials (cid : Nat) : List (Command Unit) :=
  [.setDataChannel cid, .enterDataState "M-RAW_IP" cid]

/-- Send commands one after another as steps of that severity, watching the token. -/
def runSteps (severity : Severity) : List (Command Unit) → Operation Bearer Unit
  | [] => pure ()
  | c :: cs => do
    discard <| step true severity c
    runSteps severity cs

/-- Bring the context up. -/
def dial : Operation Bearer Unit := do
  let b ← get
  let cid := normalizeCid b.cid
  runSteps .soft (preparations cid b.family)
  runSteps .fatal (essentials cid)

/-- The context to name in a command that may also be meant for all contexts. -/
def namedCid (cid : Nat) : Option Nat :=
  if normalizeCid cid = 0 then none else some (normalizeCid cid)

/-- Bring the context down. -/
def disconnect : Operation Bearer Unit := do
  discard <| step false .soft (.setContextState 0 (namedCid (← get).cid))

/-- Whether settings are for IPv6. -/
def isIpv6 (s : IpSettings) : Bool := s.address.toList.contains ':'

/-- The length of the network part where none was reported: that of the largest networks there
are. -/
def withNetwork (s : IpSettings) : IpSettings :=
  if s.prefixLength = 0 then { s with prefixLength := 8 } else s

/-- The first settings of each family that the connection is for. -/
def settingsOf (family : Family) (all : List IpSettings) : ConnectionSettings :=
  { ipv4 := if family.hasIpv4 then (all.find? (!isIpv6 ·)).map withNetwork else none
    ipv6 := if family.hasIpv6 then all.find? isIpv6 else none }

/-- Read the IP settings of the connection. -/
def loadSettings : Operation Bearer ConnectionSettings := do
  let b ← get
  let settings := settingsOf b.family (← send (.contextSettings (normalizeCid b.cid)))
  if settings.ipv4.isNone && settings.ipv6.isNone then
    throw (.parse "No IP settings for the requested family")
  return settings

end Bearer

end Cellular.Xmm
