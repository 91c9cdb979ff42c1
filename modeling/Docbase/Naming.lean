/-
Naming strategies for projected fields. The camel-case strategy lowers the
leading run of upper-case characters: all of it if the name ends there or white
space follows, and all but its last character if something else follows, which
then starts the next word; a run of one character is always lowered.
-/
import Docbase.Text.Blank
import Docbase.Text.LowerCase
import Docbase.Text.Uppercase
import Docbase.Value.Basic

namespace Docbase

inductive NamingStrategy where
  /-- Names are kept. -/
  | verbatim
  | camelCase
  deriving DecidableEq

namespace NamingStrategy

/-- Lowers the rest of a run whose first character has been lowered. -/
def lowerRun : List Char → List Char
  | [] => []
  | [c] => if Text.isUppercase c then [Text.lowerChar c] else [c]
  | c :: next :: rest =>
    if Text.isUppercase c then
      if Text.isUppercase next then Text.lowerChar c :: lowerRun (next :: rest)
      else if Text.isBlank next then Text.lowerChar c :: next :: rest
      else c :: next :: rest
    else c :: next :: rest

def camelChars : List Char → List Char
  | [] => []
  | c :: rest => if Text.isUppercase c then Text.lowerChar c :: lowerRun rest else c :: rest

def resolve (s : NamingStrategy) (name : String) : String :=
  match s with
  | .verbatim => name
  | .camelCase => String.ofList (camelChars name.toList)

/-- The name under which a projection keeps a field: `_id` is shown as `Id`, then the
strategy applies. -/
def fieldName (s : NamingStrategy) (name : String) : String :=
  s.resolve (if name = idField then logicalIdField else name)

end NamingStrategy
end Docbase
