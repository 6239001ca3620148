import Cellular.Grammar.Listing
/-!
# IP settings of an active context

`+CGCONTRDP` answers with a line for each address family:
`<cid>,<bearer_id>,<apn>,<local_addr and subnet_mask>,<gw_addr>,<DNS_prim_addr>,<DNS_sec_addr>`.

The fourth field joins an address and its mask.  An IPv4 address comes as eight octets with dots
between them, address first, or as four without a mask; an IPv6 address as `address/prefix` or
alone.
-/

namespace Cellular

/-- The settings for one address family. -/
structure IpSettings where
  address : String
  prefixLength : Nat
  gateway : Option String
  dns : List String
  deriving DecidableEq, Repr

namespace IpSettings

/-- How many octets an address may have. -/
def addressCapacity : Nat := 46

/-- How many address families a reply may list. -/
def listCapacity : Nat := 2

/-- An address, if it fits. -/
def address? (cs : List Char) : Option String := Scanner.clippedText? addressCapacity cs

/-- The stretches between occurrences of `sep`, empty ones included. -/
def splitAt (sep : Char) : List Char → List (List Char)
  | [] => [[]]
  | c :: cs =>
    if c = sep then [] :: splitAt sep cs
    else match splitAt sep cs with
      | [] => [[c]]
      | p :: ps => (c :: p) :: ps

/-- How many bits of an octet are set. -/
def setBits (n : Nat) : Nat := ((List.range 8).filter n.testBit).length

/-- How many bits are set in the octet that a text stands for. -/
def maskBits? (part : List Char) : Option Nat :=
  (Decimal.whole? Decimal.octet (Bytes.ofChars part)).map setBits

/-- The address and prefix length of a fourth field. -/
def splitLocal? (field : List Char) : Option (String × Nat) :=
  if field.contains '/' then do
    let addr ← address? (field.takeWhile (· != '/'))
    let length ← Decimal.whole? Decimal.word32 (Bytes.ofChars ((field.dropWhile (· != '/')).drop 1))
    return (addr, min length 128)
  else if field.contains ':' then
    (address? field).map (·, 0)
  else match (splitAt '.' field).take 8 with
    | [_, _, _, _] => (address? field).map (·, 0)
    | [a, b, c, d, m, n, o, p] => do
      let addr ← address? (a ++ '.' :: b ++ '.' :: c ++ '.' :: d)
      let bits ← [m, n, o, p].mapM maskBits?
      return (addr, bits.foldl (· + ·) 0)
    | _ => none

/-- The settings that the fields of one line give. -/
def ofFields? (fields : List Bytes) : Option IpSettings :=
  match fields.drop 3 with
  | [] => none
  | localField :: rest => do
    let (address, prefixLength) ← splitLocal? (← Scanner.text? localField)
    let gateway ← match rest.head? with
      | none | some [] => some none
      | some gw => (Scanner.text? gw).bind fun cs => (address? cs).map some
    let dns ← (((rest.drop 1).take 2).filter (!·.isEmpty)).mapM fun f =>
      (Scanner.text? f).bind address?
    return { address, prefixLength, gateway, dns }

/-- Reads the settings of every address family, in the order of the reply. -/
def readAll? (reply : Bytes) : Option (List IpSettings) := do
  let all ← (Scanner.lines reply).mapM fun line =>
    (Scanner.taggedFields? (Bytes.ofString "+CGCONTRDP:") 8 line).bind ofFields?
  if all.isEmpty || all.length > listCapacity then none else some all

end IpSettings

end Cellular
