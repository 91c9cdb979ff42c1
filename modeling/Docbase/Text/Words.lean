/-
The words of a text: its longest runs of alphabetic and numeric characters, in
lower case.
-/
import Docbase.Text.Alphanumeric
import Docbase.Text.LowerCase

namespace Docbase.Text

/-- The runs between the characters that belong to no word; empty runs stay. -/
def runs : List Char → List (List Char)
  | [] => [[]]
  | c :: rest =>
    if isAlphanumeric c then
      match runs rest with
      | run :: more => (c :: run) :: more
      | [] => [[c]]
    else [] :: runs rest

def words (s : String) : List (List Char) :=
  ((runs s.toList).filter fun run => !run.isEmpty).map lowerCase

end Docbase.Text
