/-! # Capital letters

Command words are compared in capitals, and all command words are plain Latin. The capitals of a
character therefore matter only where every one of them is a plain Latin letter; a character with
any other capitals can be left as it is, since no command word holds it either way. -/
namespace Accord.Text

/-- The plain Latin capitals of a character: one for each small letter, the dotless i and the long
s, several for the sharp s and the ligatures. Any other character stands for itself. -/
def capitals (c : Char) : List Char :=
  match c.toNat with
  | 0xDF => ['S', 'S']
  | 0x131 => ['I']
  | 0x17F => ['S']
  | 0xFB00 => ['F', 'F']
  | 0xFB01 => ['F', 'I']
  | 0xFB02 => ['F', 'L']
  | 0xFB03 => ['F', 'F', 'I']
  | 0xFB04 => ['F', 'F', 'L']
  | 0xFB05 => ['S', 'T']
  | 0xFB06 => ['S', 'T']
  | _ => [c.toUpper]

def capitalize (cs : List Char) : List Char :=
  cs.flatMap capitals

/-- Two words are the same keyword when they differ only in the case of plain Latin letters. -/
def sameKeyword (a b : String) : Bool :=
  a.toList.map Char.toLower == b.toList.map Char.toLower

end Accord.Text
