import Accord.Network.Ip
import Accord.Text.Capital

/-! # Addresses to listen on

A host and a number from 0 to 65535 behind the last colon. The host is an address of the internet
protocol or the name that every machine has for itself. No other name is known here, and there is
nobody to ask. -/
namespace Accord

structure Address where
  ip : Ip
  port : Nat
  deriving DecidableEq, Repr

inductive AddressError where
  | noPort
  | invalidPort
  /-- Nobody can be asked for the name. -/
  | unresolved
  /-- The name cannot even be asked for. -/
  | unknownName
  /-- The address is not one of this machine. -/
  | unavailable
  /-- Nobody can listen on such an address. -/
  | unsuitable
  /-- The zone of the address is not an interface of this machine. -/
  | noInterface
  deriving DecidableEq, Repr

def AddressError.message : AddressError → String
  | .noPort => "invalid socket address"
  | .invalidPort => "invalid port value"
  | .unresolved =>
    "failed to lookup address information: Temporary failure in name resolution"
  | .unknownName => "failed to lookup address information: Name or service not known"
  | .unavailable => "Cannot assign requested address (os error 99)"
  | .unsuitable => "Invalid argument (os error 22)"
  | .noInterface => "No such device (os error 19)"

namespace Address

/-- The parts of a text before and behind the first place where a character stands. -/
def cutAt (c : Char) (cs : List Char) : List Char × Option (List Char) :=
  (cs.takeWhile (· != c), (cs.dropWhile (· != c)).tail?)

/-- The number of the only interface that every machine has. -/
def loopbackZone : Nat := 1

/-- The zone of an address with these groups. Where a single interface is meant, its name does as
well. -/
def zone? (groups : List Nat) (cs : List Char) : Option Nat :=
  if (Ip.isLinkLocal groups || Ip.isLinkMulticast groups) && cs = "lo".toList then some loopbackZone
  else Ip.zoneNumber? cs

def byteSize (cs : List Char) : Nat := (String.ofList cs).utf8ByteSize

/-- Labels of 1 to 63 bytes with dots between them, at most 253 bytes in all, and maybe a dot at the
end; the dot alone is the root of all names. -/
def isDomainName (cs : List Char) : Bool :=
  let name := if cs.getLast? = some '.' then cs.dropLast else cs
  cs = ['.'] || (byteSize name ≤ 253 &&
    (Text.pieces '.' name).all fun label => 1 ≤ byteSize label && byteSize label ≤ 63)

/-- The address of a host. -/
def resolve (host : List Char) : Except AddressError Ip :=
  let (literal, zone) := cutAt '%' host
  match Ip.loose? host, Ip.colons? literal with
  | some value, _ => .ok (.version4 value)
  | none, some groups =>
    match zone with
    | none => .ok (.version6 groups 0)
    | some name =>
      match zone? groups name with
      | some number => .ok (.version6 groups number)
      | none => .error .unknownName
  | none, none =>
    if Text.sameKeyword (String.ofList host) "localhost" then .ok Ip.localhost
    else if isDomainName host && host != ['*'] then .error .unresolved
    else .error .unknownName

/-- An address of version 6 in brackets, maybe with the number of a zone. -/
def bracketed? (host : List Char) : Option Ip :=
  match host with
  | '[' :: inner =>
    if inner.getLast? = some ']' then
      let (literal, zone) := cutAt '%' inner.dropLast
      let number := match zone with
        | none => some 0
        | some name => Ip.zoneNumber? name
      (Ip.colons? literal).bind fun groups => number.map (.version6 groups)
    else none
  | _ => none

/-- Brackets are understood only where the port is written in digits alone. -/
def parse (s : String) : Except AddressError Address :=
  let behind := (s.toList.reverse.takeWhile (· != ':')).reverse
  match s.toList.reverse.dropWhile (· != ':') with
  | [] => .error .noPort
  | _ :: before =>
    match Text.readNumeral 65536 behind with
    | .error _ => .error .invalidPort
    | .ok port =>
      match (bracketed? before.reverse).filter fun _ => behind.all Char.isDigit with
      | some ip => .ok ⟨ip, port⟩
      | none => (resolve before.reverse).map (⟨·, port⟩)

end Address
end Accord
