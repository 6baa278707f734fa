import Accord.Text.Numeral

/-! # Tokens of the data format

A text is cut into tokens by one pass over its characters, with nothing left open at its end. The
tokens keep what is written: a numeral is not yet a number, and a quoted text may still hold halves
of characters that are written as two escapes. -/
namespace Accord.Json

/-- A part of a quoted text: a character, or a 16-bit unit written as an escape. -/
inductive Piece where
  | char (c : Char)
  | unit (n : Nat)
  deriving DecidableEq, Repr

/-- A numeral as it is written. -/
structure Numeral where
  negative : Bool
  whole : List Nat
  /-- The digits after the point; empty when there is no point. -/
  fraction : List Nat
  exponent : Option Int
  deriving DecidableEq, Repr

inductive Token where
  | openArray
  | closeArray
  | openObject
  | closeObject
  | comma
  | colon
  | null
  | bool (b : Bool)
  | number (n : Numeral)
  | string (pieces : List Piece)
  deriving DecidableEq, Repr

/-! ## Numerals -/

/-- The digits that a text begins with, and the rest of the text. -/
def spanDigits : List Char → List Nat × List Char
  | [] => ([], [])
  | c :: cs =>
    match Text.digit? c with
    | some d => (d :: (spanDigits cs).1, (spanDigits cs).2)
    | none => ([], c :: cs)

/-- The value of decimal digits. -/
def ofDigits (ds : List Nat) : Nat :=
  ds.foldl (fun acc d => 10 * acc + d) 0

/-- An exponent: its sign, and at least one digit up to the end of the text. -/
def readExponent (cs : List Char) : Option Int :=
  let read (ds : List Nat × List Char) : Option Nat :=
    if ds.1.isEmpty || !ds.2.isEmpty then none else some (ofDigits ds.1)
  match cs with
  | '+' :: rest => (read (spanDigits rest)).map Int.ofNat
  | '-' :: rest => (read (spanDigits rest)).map fun n => -(n : Int)
  | rest => (read (spanDigits rest)).map Int.ofNat

/-- What may follow the digits before or after the point: an exponent or the end. -/
def readTail (negative : Bool) (whole fraction : List Nat) : List Char → Option Numeral
  | [] => some ⟨negative, whole, fraction, none⟩
  | 'e' :: cs => (readExponent cs).map fun e => ⟨negative, whole, fraction, some e⟩
  | 'E' :: cs => (readExponent cs).map fun e => ⟨negative, whole, fraction, some e⟩
  | _ => none

/-- A numeral without its minus sign: no needless zero leads it, and there are digits on both sides
of a point. -/
def readUnsigned (negative : Bool) (cs : List Char) : Option Numeral :=
  let whole := (spanDigits cs).1
  if whole.isEmpty || (whole.head? == some 0 && 1 < whole.length) then none
  else
    match (spanDigits cs).2 with
    | '.' :: rest =>
      let fraction := (spanDigits rest).1
      if fraction.isEmpty then none else readTail negative whole fraction (spanDigits rest).2
    | rest => readTail negative whole [] rest

def readNumeral : List Char → Option Numeral
  | '-' :: cs => readUnsigned true cs
  | cs => readUnsigned false cs

/-! ## The pass over the characters -/

/-- What the characters since the last token belong to; collected parts are kept last first. -/
inductive Scan where
  | between
  | word (letters : List Char)
  | numeral (chars : List Char)
  | string (pieces : List Piece)
  /-- Behind a backslash. -/
  | escape (pieces : List Piece)
  /-- Behind an escape that names a unit, with the digits it still lacks. -/
  | hex (pieces : List Piece) (missing value : Nat)
  deriving DecidableEq, Repr

/-- The blanks that may stand between tokens. -/
def isSpace (c : Char) : Bool :=
  c == ' ' || c == '\t' || c == '\n' || c == '\r'

def isNumeralChar (c : Char) : Bool :=
  c.isDigit || c == '-' || c == '+' || c == '.' || c == 'e' || c == 'E'

/-- The character that an escape of one letter stands for. -/
def unescape? : Char → Option Char
  | '"' => some '"'
  | '\\' => some '\\'
  | '/' => some '/'
  | 'b' => some (Char.ofNat 0x8)
  | 'f' => some (Char.ofNat 0xC)
  | 'n' => some '\n'
  | 'r' => some '\r'
  | 't' => some '\t'
  | _ => none

def wordToken? : List Char → Option Token
  | ['n', 'u', 'l', 'l'] => some .null
  | ['t', 'r', 'u', 'e'] => some (.bool true)
  | ['f', 'a', 'l', 's', 'e'] => some (.bool false)
  | _ => none

/-- The tokens so far, last first, and what is open behind them. -/
structure Scanner where
  tokens : List Token
  scan : Scan

/-- A character that stands between tokens or begins one. -/
def Scanner.begin (tokens : List Token) (c : Char) : Option Scanner :=
  match c with
  | '[' => some ⟨.openArray :: tokens, .between⟩
  | ']' => some ⟨.closeArray :: tokens, .between⟩
  | '\x7b' => some ⟨.openObject :: tokens, .between⟩
  | '\x7d' => some ⟨.closeObject :: tokens, .between⟩
  | ',' => some ⟨.comma :: tokens, .between⟩
  | ':' => some ⟨.colon :: tokens, .between⟩
  | '"' => some ⟨tokens, .string []⟩
  | c =>
    if isSpace c then some ⟨tokens, .between⟩
    else if c.isDigit || c == '-' then some ⟨tokens, .numeral [c]⟩
    else if c.isLower then some ⟨tokens, .word [c]⟩
    else none

/-- Ends a word or a numeral where a character cannot belong to it. -/
def Scanner.settle (s : Scanner) : Option (List Token) :=
  match s.scan with
  | .between => some s.tokens
  | .word letters => (wordToken? letters.reverse).map (· :: s.tokens)
  | .numeral chars => (readNumeral chars.reverse).map fun n => .number n :: s.tokens
  | _ => none

def Scanner.step (s : Scanner) (c : Char) : Option Scanner :=
  match s.scan with
  | .between => begin s.tokens c
  | .word letters =>
    if c.isLower then some ⟨s.tokens, .word (c :: letters)⟩
    else s.settle.bind fun tokens => begin tokens c
  | .numeral chars =>
    if isNumeralChar c then some ⟨s.tokens, .numeral (c :: chars)⟩
    else s.settle.bind fun tokens => begin tokens c
  | .string pieces =>
    if c = '"' then some ⟨.string pieces.reverse :: s.tokens, .between⟩
    else if c = '\\' then some ⟨s.tokens, .escape pieces⟩
    else if c.toNat < 0x20 then none
    else some ⟨s.tokens, .string (.char c :: pieces)⟩
  | .escape pieces =>
    if c = 'u' then some ⟨s.tokens, .hex pieces 4 0⟩
    else (unescape? c).map fun d => ⟨s.tokens, .string (.char d :: pieces)⟩
  | .hex pieces missing value =>
    (Text.hexDigit? c).map fun d =>
      if missing ≤ 1 then ⟨s.tokens, .string (.unit (16 * value + d) :: pieces)⟩
      else ⟨s.tokens, .hex pieces (missing - 1) (16 * value + d)⟩

/-- The tokens of a text. -/
def tokens? (cs : List Char) : Option (List Token) :=
  (cs.foldlM Scanner.step ⟨[], .between⟩).bind fun s => s.settle.map List.reverse

end Accord.Json
