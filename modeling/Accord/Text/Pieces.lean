/-! # Pieces of a text -/
namespace Accord.Text

/-- The pieces of a text between the places where a separator stands. -/
def pieces (separator : Char) : List Char → List (List Char)
  | [] => [[]]
  | c :: cs =>
    match pieces separator cs with
    | [] => [[c]]
    | first :: rest => if c = separator then [] :: first :: rest else (c :: first) :: rest

/-- The lines of a text; the last one may lack its end. -/
def lines (cs : List Char) : List String :=
  let all := pieces '\n' cs
  (if all.getLast? = some [] then all.dropLast else all).map String.ofList

end Accord.Text
