import Accord.Json.Basic
import Accord.Number.Shortest
import Accord.Text.Numeral

/-! # Writing values

Two layouts of one format: without any blanks, which is what messages and the log hold, and with
one item a line, which is what the console prints. -/
namespace Accord

open Number (Decimal)

/-- Floats are written positionally from `10 ^ -5` on and below `10 ^ 16`, and with an exponent
outside of that range. -/
structure FloatFormat where
  leastPositional : Int
  firstScientific : Int

def Json.floatFormat : FloatFormat := ⟨-5, 16⟩

/-- The digits with a point in front of the digits after the first `whole` ones; there is at least
one digit on both sides. -/
def placePoint (ds : List Char) (whole : Int) : List Char :=
  if whole ≤ 0 then '0' :: '.' :: List.replicate (-whole).toNat '0' ++ ds
  else
    let n := whole.toNat
    if ds.length ≤ n then ds ++ List.replicate (n - ds.length) '0' ++ ['.', '0']
    else ds.take n ++ '.' :: ds.drop n

/-- A decimal as a format writes it. -/
def FloatFormat.write (format : FloatFormat) (d : Decimal) : List Char :=
  let ds := Text.digits d.digits
  let lead := d.power + ds.length - 1
  if format.leastPositional ≤ lead && lead < format.firstScientific then placePoint ds (lead + 1)
  else
    let fraction := ds.drop 1
    ds.take 1 ++ (if fraction.isEmpty then [] else '.' :: fraction) ++
      'e' :: (if lead < 0 then '-' else '+') :: Text.digits lead.natAbs

/-- A float as the shortest decimal that lies in its rounding interval; zero keeps its sign. -/
def Number.Binary64.write (x : Number.Binary64) : List Char :=
  let unsigned :=
    if x.isZero then ['0', '.', '0'] else Json.floatFormat.write (Number.shortest x.code)
  if x.negative then '-' :: unsigned else unsigned

def writeInteger : Int → List Char
  | .ofNat n => Text.digits n
  | .negSucc n => '-' :: Text.digits (n + 1)

def JsonNumber.write : JsonNumber → List Char
  | .integer i => writeInteger i
  | .float x => x.write

namespace Json

/-- A character inside a quoted text. Only the quote, the backslash and the control characters are
written differently from themselves. -/
def escape (c : Char) : List Char :=
  match c with
  | '"' => ['\\', '"']
  | '\\' => ['\\', '\\']
  | '\n' => ['\\', 'n']
  | '\r' => ['\\', 'r']
  | '\t' => ['\\', 't']
  | c =>
    if c.toNat = 0x8 then ['\\', 'b']
    else if c.toNat = 0xC then ['\\', 'f']
    else if c.toNat < 0x20 then
      ['\\', 'u', '0', '0', Nat.digitChar (c.toNat / 16), Nat.digitChar (c.toNat % 16)]
    else [c]

def quote (s : String) : List Char :=
  '"' :: s.toList.flatMap escape ++ ['"']

mutual

/-- A value without any blanks. -/
def render : Json → List Char
  | .null => ['n', 'u', 'l', 'l']
  | .bool true => ['t', 'r', 'u', 'e']
  | .bool false => ['f', 'a', 'l', 's', 'e']
  | .number n => n.write
  | .string s => quote s
  | .array [] => ['[', ']']
  | .array (v :: vs) => '[' :: (render v ++ renderItems vs)
  | .object [] => ['\x7b', '\x7d']
  | .object ((k, v) :: fs) => '\x7b' :: (quote k ++ ':' :: (render v ++ renderFields fs))

/-- The items after the first one, and the end of the array. -/
def renderItems : List Json → List Char
  | [] => [']']
  | v :: vs => ',' :: (render v ++ renderItems vs)

/-- The fields after the first one, and the end of the object. -/
def renderFields : List (String × Json) → List Char
  | [] => ['\x7d']
  | (k, v) :: fs => ',' :: (quote k ++ ':' :: (render v ++ renderFields fs))

end

def text (v : Json) : String :=
  String.ofList v.render

/-- A fresh line at a depth; each level is set in by two blanks. -/
def freshLine (depth : Nat) : List Char :=
  '\n' :: List.replicate (2 * depth) ' '

mutual

/-- A value with one item a line; empty arrays and objects stay on theirs. -/
def layout (depth : Nat) : Json → List Char
  | .array (v :: vs) => '[' :: freshLine (depth + 1) ++ layout (depth + 1) v ++ layoutItems depth vs
  | .object ((k, v) :: fs) =>
    '\x7b' :: freshLine (depth + 1) ++ quote k ++ ':' :: ' ' :: layout (depth + 1) v ++
      layoutFields depth fs
  | .null => ['n', 'u', 'l', 'l']
  | .bool true => ['t', 'r', 'u', 'e']
  | .bool false => ['f', 'a', 'l', 's', 'e']
  | .number n => n.write
  | .string s => quote s
  | .array [] => ['[', ']']
  | .object [] => ['\x7b', '\x7d']

def layoutItems (depth : Nat) : List Json → List Char
  | [] => freshLine depth ++ [']']
  | v :: vs => ',' :: freshLine (depth + 1) ++ layout (depth + 1) v ++ layoutItems depth vs

def layoutFields (depth : Nat) : List (String × Json) → List Char
  | [] => freshLine depth ++ ['\x7d']
  | (k, v) :: fs =>
    ',' :: freshLine (depth + 1) ++ quote k ++ ':' :: ' ' :: layout (depth + 1) v ++
      layoutFields depth fs

end

/-- The text that the console prints. -/
def prettyText (v : Json) : String :=
  String.ofList (v.layout 0)

end Json
end Accord
