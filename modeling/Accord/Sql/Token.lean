import Accord.Sql.Statement
import Accord.Text.Alphanumeric
import Accord.Text.Blank
import Accord.Text.Capital

/-! # Tokens of statements

One pass over the characters cuts a statement into tokens. Blanks and semicolons only separate
them. A word may be quoted by backquotes or double quotes, and then holds any characters but its
mark; a string is quoted by single quotes, and a single quote inside it is written twice. -/
namespace Accord.Sql

inductive Token where
  | word (w : String)
  | number (digits : String)
  | text (s : String)
  | placeholder
  | openParen
  | closeParen
  | comma
  | star
  | equals
  deriving DecidableEq, Repr

/-- How an error names a token. -/
def Token.describe : Token → String
  | .word w => w
  | .number digits => digits
  | .text s => "'" ++ s ++ "'"
  | .placeholder => "?"
  | .openParen => "("
  | .closeParen => ")"
  | .comma => ","
  | .star => "*"
  | .equals => "="

/-- Whether a token is a word that spells a keyword, in any case and also when it is quoted. -/
def Token.spells (keyword : String) : Token → Bool
  | .word w => Text.sameKeyword w keyword
  | _ => false

/-- What the characters since the last token belong to; they are kept last first. -/
inductive Scan where
  | between
  | word (chars : List Char)
  | number (chars : List Char)
  | text (chars : List Char)
  /-- Behind a quote that ends the string unless another one follows. -/
  | textQuote (chars : List Char)
  | quotedWord (mark : Char) (chars : List Char)
  deriving DecidableEq, Repr

/-- The tokens so far, last first, and what is open behind them. -/
structure Scanner where
  tokens : List Token
  scan : Scan

def isNumberStart (c : Char) : Bool :=
  c.isDigit || c == '-' || c == '.'

def isNumberChar (c : Char) : Bool :=
  c.isDigit || c == '-' || c == '+' || c == '.' || c == 'e' || c == 'E'

def isWordStart (c : Char) : Bool :=
  Text.isAlphanumeric c || c == '_'

def isWordChar (c : Char) : Bool :=
  isWordStart c || c == '.'

/-- The two marks that quote a word. -/
def isWordMark (c : Char) : Bool :=
  c == '\x60' || c == '"'

def markToken? : Char → Option Token
  | '(' => some .openParen
  | ')' => some .closeParen
  | ',' => some .comma
  | '*' => some .star
  | '=' => some .equals
  | '?' => some .placeholder
  | _ => none

/-- A character that stands between tokens or begins one. -/
def Scanner.begin (tokens : List Token) (c : Char) : Except SqlError Scanner :=
  if Text.isBlank c || c == ';' then .ok ⟨tokens, .between⟩
  else
    match markToken? c with
    | some token => .ok ⟨token :: tokens, .between⟩
    | none =>
      if c == '\'' then .ok ⟨tokens, .text []⟩
      else if isNumberStart c then .ok ⟨tokens, .number [c]⟩
      else if isWordMark c then .ok ⟨tokens, .quotedWord c []⟩
      else if isWordStart c then .ok ⟨tokens, .word [c]⟩
      else .error (.misplaced c.toString "a statement token")

/-- Ends a token at a character that cannot belong to it, or at the end of the text. -/
def Scanner.settle (s : Scanner) : Except SqlError (List Token) :=
  match s.scan with
  | .between => .ok s.tokens
  | .word chars => .ok (.word (String.ofList chars.reverse) :: s.tokens)
  | .number chars => .ok (.number (String.ofList chars.reverse) :: s.tokens)
  | .textQuote chars => .ok (.text (String.ofList chars.reverse) :: s.tokens)
  | .text _ => .error .unclosedQuote
  | .quotedWord _ _ => .error .unclosedQuote

def Scanner.step (s : Scanner) (c : Char) : Except SqlError Scanner :=
  match s.scan with
  | .between => begin s.tokens c
  | .word chars =>
    if isWordChar c then .ok ⟨s.tokens, .word (c :: chars)⟩
    else s.settle.bind fun tokens => begin tokens c
  | .number chars =>
    if isNumberChar c then .ok ⟨s.tokens, .number (c :: chars)⟩
    else s.settle.bind fun tokens => begin tokens c
  | .text chars =>
    if c == '\'' then .ok ⟨s.tokens, .textQuote chars⟩ else .ok ⟨s.tokens, .text (c :: chars)⟩
  | .textQuote chars =>
    if c == '\'' then .ok ⟨s.tokens, .text (c :: chars)⟩
    else s.settle.bind fun tokens => begin tokens c
  | .quotedWord mark chars =>
    if c == mark then .ok ⟨.word (String.ofList chars.reverse) :: s.tokens, .between⟩
    else .ok ⟨s.tokens, .quotedWord mark (c :: chars)⟩

/-- The tokens of a statement's text. -/
def tokenize (cs : List Char) : Except SqlError (List Token) :=
  (cs.foldlM Scanner.step ⟨[], .between⟩).bind fun s => s.settle.map List.reverse

end Accord.Sql
