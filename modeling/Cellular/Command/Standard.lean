import Cellular.Command.Basic
import Cellular.Reply.IpSettings
/-!
# Commands of the standard

Commands of 3GPP TS 27.007 that several vendors share.
-/

namespace Cellular.Command

/-- `+CFUN`: set the functionality level. -/
def setFunctionality (level : Nat) : Command Unit :=
  set "+CFUN" [some (.number level)] 180000

/-- `+CFUN=?`: ask for the functionality levels. -/
def testFunctionality : Command (List Nat) :=
  query "+CFUN=?" functionalityLevels? 3000

/-- `+COPS=0`: let the modem choose the operator. -/
def automaticOperator : Command Unit := plain "+COPS=0" 120000

/-- How many octets an operator's number may have. -/
def operatorCapacity : Nat := 8

/-- `+COPS=1,2,"<oper>"`: choose an operator by its number. -/
def manualOperator (operator : String) : Command Unit :=
  joined "+COPS=1,2," [some (.quoted operator)] 120000

/-- `+COPS=,,,<AcT>`: change the access technology of the current choice. -/
def operatorTechnology (act : Nat) : Command Unit :=
  joined "+COPS=,,," [some (.number act)] 20000

/-- `+CNMI=?`: ask how new messages can be indicated. -/
def testMessageIndication : Command MessageIndicationSupport :=
  query "+CNMI=?" MessageIndicationSupport.read? 3000

/-- `+CNMI`: say how new messages are indicated. -/
def setMessageIndication (mode mt bm ds : Nat) (bfr : Option Nat) : Command Unit :=
  set "+CNMI" [some (.number mode), some (.number mt), some (.number bm), some (.number ds),
    bfr.map .number] 3000

/-- `+CGACT`: activate or deactivate a context, or every context when none is named. -/
def setContextState (state : Nat) (cid : Option Nat) : Command Unit :=
  set "+CGACT" [some (.number state), cid.map .number] 10000

/-- `+CGDATA`: enter the data state of a context. -/
def enterDataState (layer2 : String) (cid : Nat) : Command Unit :=
  set "+CGDATA" [some (.quoted layer2), some (.number cid)] 10000

/-- `+CGPIAF`: print IPv6 addresses with colons, prefix length and zeros left out. -/
def setIpv6Format : Command Unit := plain "+CGPIAF=1,1,0,1" 3000

/-- `+CGCONTRDP`: ask for the IP settings of a context. -/
def contextSettings (cid : Nat) : Command (List IpSettings) :=
  ⟨{ name := "+CGCONTRDP", arguments := [some (.number cid)], timeout := 10000 },
    IpSettings.readAll?⟩

end Cellular.Command
