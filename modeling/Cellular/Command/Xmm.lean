import Cellular.Command.Basic
/-!
# Commands of Intel XMM modems
-/

namespace Cellular.Command

/-- `+XDNS`: ask for name servers of an address family, 1 for IPv4 and 2 for IPv6. -/
def requestDns (cid family : Nat) : Command Unit :=
  set "+XDNS" [some (.number cid), some (.number family)] 3000

/-- `+XDATACHANNEL`: route a context to the first IP session of the PCIe interface. -/
def setDataChannel (cid : Nat) : Command Unit :=
  joined "+xdatachannel=1,1,\"/PCIE/IOSM/CTRL/1\",\"/PCIE/IOSM/IPS/0\",2,"
    [some (.number cid)] 10000

end Cellular.Command
