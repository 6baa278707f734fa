import Accord.Json.Basic
import Accord.Text.Blank
import Accord.Text.Numeral

/-! # Identities of nodes

The nodes of a cluster of size `n` are numbered from 1 to `n`. -/
namespace Accord

/-- A number that names a node; it fits 64 bits wherever it is read. -/
abbrev MemberId := Nat

namespace MemberId

/-- The number of a text, which may stand between blanks. -/
def ofText (s : String) : Except Text.NumeralError MemberId :=
  Text.readNumeral Text.wordLimit (Text.trim s.toList)

/-- Peers may send a number or a text that holds one. -/
def ofJson? : Json → Option MemberId
  | .string s => (ofText s).toOption
  | v => v.natural? Text.wordLimit

end MemberId
end Accord
