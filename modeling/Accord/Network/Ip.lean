import Accord.Text.Numeral
import Accord.Text.Pieces

/-! # Addresses of the internet protocol

The two versions of addresses and the texts that stand for them. An address of version 4 is four
bytes, an address of version 6 is eight groups of sixteen bits. -/
namespace Accord

inductive Ip where
  | version4 (value : Nat)
  /-- The zone is the number of the interface that the address is meant on, zero for none. -/
  | version6 (groups : List Nat) (zone : Nat)
  deriving DecidableEq, Repr

namespace Ip

/-- The number that digits spell in a base, each given by its value. -/
def compose (base : Nat) (values : List Nat) : Nat :=
  values.foldl (fun acc value => base * acc + value) 0

/-! ## Version 4 -/

/-- A number below 256 without needless zeros. -/
def octet? (cs : List Char) : Option Nat :=
  match Text.readNumeral 256 cs with
  | .ok n => if Text.digits n = cs then some n else none
  | .error _ => none

/-- Four numbers below 256 with dots between them. -/
def dotted? (cs : List Char) : Option (List Nat) :=
  let octets := Text.pieces '.' cs
  if octets.length = 4 then octets.mapM octet? else none

/-- One to four numbers in any base, with dots between them. All but the last are single bytes, and
the last one fills the bytes that are left. -/
def loose? (cs : List Char) : Option Nat := do
  let values ← (Text.pieces '.' cs).mapM Text.readBased?
  let bytes := values.dropLast
  let last ← values.getLast?
  let left := Nat.pow 256 (4 - bytes.length)
  if bytes.length < 4 && bytes.all (· < 256) && last < left then
    return compose 256 bytes * left + last
  else none

/-- The addresses of a machine as it sees itself: those that start with 127. -/
def isLoopback4 (value : Nat) : Bool :=
  compose 256 [127, 0, 0, 0] ≤ value && value < compose 256 [128, 0, 0, 0]

/-- The name that every machine has for itself. -/
def localhost : Ip := .version4 (compose 256 [127, 0, 0, 1])

/-! ## Version 6 -/

/-- One to four hexadecimal digits. -/
def group? (cs : List Char) : Option Nat :=
  if 1 ≤ cs.length && cs.length ≤ 4 then Text.ofDigits? 16 cs else none

/-- The last piece of an address: a group, or two groups written as four bytes. -/
def lastGroups? (cs : List Char) : Option (List Nat) :=
  match dotted? cs with
  | some [a, b, c, d] => some [256 * a + b, 256 * c + d]
  | _ => (group? cs).map ([·])

/-- Groups with colons between them, none for the empty text. -/
def groups? (cs : List Char) : Option (List Nat) :=
  if cs.isEmpty then some [] else (Text.pieces ':' cs).mapM group?

/-- Groups of which the last two may be written as four bytes. -/
def closingGroups? (cs : List Char) : Option (List Nat) := do
  let pieces := Text.pieces ':' cs
  if cs.isEmpty then return []
  let first ← pieces.dropLast.mapM group?
  let last ← pieces.getLast?
  return first ++ (← lastGroups? last)

/-- What stands before and behind the first two colons in a row. -/
def splitGap : List Char → Option (List Char × List Char)
  | ':' :: ':' :: cs => some ([], cs)
  | c :: cs => (splitGap cs).map fun (before, behind) => (c :: before, behind)
  | [] => none

/-- Eight groups with colons between them, or fewer with one gap that is written as two colons and
stands for one or more groups of zero. -/
def colons? (cs : List Char) : Option (List Nat) :=
  match splitGap cs with
  | none => (closingGroups? cs).filter (·.length = 8)
  | some (before, behind) => do
    let first ← groups? before
    let last ← closingGroups? behind
    let full := first.length + last.length
    if full ≤ 7 then return first ++ List.replicate (8 - full) 0 ++ last else none

/-- The address that stands for all of a machine's own. -/
def anywhere : List Nat := List.replicate 8 0

def loopback6 : List Nat := List.replicate 7 0 ++ [1]

/-- An address of version 4 among those of version 6. -/
def mapped? : List Nat → Option Nat
  | [0, 0, 0, 0, 0, 0xFFFF, high, low] => some (compose 65536 [high, low])
  | _ => none

/-- The addresses of groups of machines. -/
def isMulticast (groups : List Nat) : Bool :=
  groups.head?.any (0xFF00 ≤ ·)

/-- The addresses that mean something on a single interface only. -/
def isLinkLocal (groups : List Nat) : Bool :=
  groups.head?.any fun g => 0xFE80 ≤ g && g < 0xFEC0

/-- The groups of an address for a single link's multicast. -/
def isLinkMulticast (groups : List Nat) : Bool :=
  groups.head?.any fun g => 0xFF00 ≤ g && g % 16 = 2

/-- A zone by its number. -/
def zoneNumber? (cs : List Char) : Option Nat :=
  if cs.isEmpty then none else (Text.ofDigits? 10 cs).filter (· < Nat.pow 2 32)

end Ip
end Accord
