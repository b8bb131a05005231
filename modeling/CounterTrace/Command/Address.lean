import CounterTrace.Text.Numeral

/-!
# Network addresses

An address is a host and a port with a colon between them; the last colon counts.
-/

namespace CounterTrace

/-- Why a text is no address. -/
inductive AddressError where
  | noPort
  | badPort
  deriving DecidableEq, Repr

namespace AddressError

def message : AddressError → String
  | noPort => "invalid socket address"
  | badPort => "invalid port value"

end AddressError

namespace Address

def hostAndPort? (address : String) : Option (String × String) :=
  let cs := address.toList.reverse
  match cs.dropWhile (· != ':') with
  | [] => none
  | _ :: host =>
    some (String.ofList host.reverse, String.ofList (cs.takeWhile (· != ':')).reverse)

def portNumber? (port : String) : Option UInt16 :=
  (Text.Numeral.read 10 UInt16.size port.toList).toOption.map UInt16.ofNat

def fault? (address : String) : Option AddressError :=
  match hostAndPort? address with
  | none => some .noPort
  | some (_, port) => if (portNumber? port).isSome then none else some .badPort

/-- The address to listen on: a port alone stands for every host. -/
def listening (address : String) : String :=
  if address.startsWith ":" then "0.0.0.0" ++ address else address

end Address

end CounterTrace
