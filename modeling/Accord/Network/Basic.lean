import Accord.Network.Address

/-! # The network around a node

What a node can be reached by: its own machine through the loopback interface, or nothing at all.
A machine without interfaces has no table of its addresses. It then takes every address of version 4
for its own, but of version 6 only the one that stands for all. -/
namespace Accord

/-- Whether connections between a node and its surroundings can be made. -/
inductive Network where
  | reachable
  | isolated
  deriving DecidableEq, Repr

namespace Network

def owns4 (network : Network) (value : Nat) : Bool :=
  network = .isolated || value = 0 || Ip.isLoopback4 value

def owns6 (network : Network) (groups : List Nat) : Bool :=
  groups = Ip.anywhere || (network = .reachable && groups = Ip.loopback6)

/-- Why an address cannot be listened on. -/
def refusal? (network : Network) : Ip → Option AddressError
  | .version4 value => if network.owns4 value then none else some .unavailable
  | .version6 groups zone =>
    match Ip.mapped? groups with
    | some value => if network.owns4 value then none else some .unavailable
    | none =>
      if Ip.isMulticast groups || (Ip.isLinkLocal groups && zone = 0) then some .unsuitable
      else if Ip.isLinkLocal groups && zone != Address.loopbackZone then some .noInterface
      else if network.owns6 groups then none
      else some .unavailable

/-- Whether a text names an address that can be listened on. -/
def listen (network : Network) (address : String) : Except AddressError Address :=
  (Address.parse address).bind fun a =>
    match network.refusal? a.ip with
    | some error => .error error
    | none => .ok a

end Network
end Accord
