/-
The structure of JSON texts: strict JSON, with nothing but white space around
the value. The reader takes one token at a time and keeps the containers that
are still open, the innermost first, so that texts nest as deeply as they like.
-/
import Docbase.Json.Token

namespace Docbase.Json

/-- A JSON text as a tree. Numbers are kept as they are written. -/
inductive Tree where
  | null
  | bool (b : Bool)
  | number (n : NumberText)
  | string (s : Option String)
  | array (items : List Tree)
  | object (members : List (Option String × Tree))
  deriving Inhabited

/-- A container of which a part has been read. -/
inductive Frame where
  | items (done : List Tree)
  | members (done : List (Option String × Tree)) (key : Option String)

/-- What is due next, within the open containers. -/
inductive Due where
  | value (outer : List Frame)
  | itemOrEnd (outer : List Frame)
  | keyOrEnd (outer : List Frame)
  | key (done : List (Option String × Tree)) (outer : List Frame)
  | colon (done : List (Option String × Tree)) (key : Option String) (outer : List Frame)
  /-- A value has been read: a comma or the end of its container. -/
  | separator (value : Tree) (outer : List Frame)

/-- A token where a value is due. -/
def valueStep? (outer : List Frame) : Token → Option Due
  | .null => some (.separator .null outer)
  | .bool b => some (.separator (.bool b) outer)
  | .number n => some (.separator (.number n) outer)
  | .string s => some (.separator (.string s) outer)
  | .leftBracket => some (.itemOrEnd outer)
  | .leftBrace => some (.keyOrEnd outer)
  | _ => none

def treeStep? : Due → Token → Option Due
  | .value outer, t => valueStep? outer t
  | .itemOrEnd outer, .rightBracket => some (.separator (.array []) outer)
  | .itemOrEnd outer, t => valueStep? (.items [] :: outer) t
  | .keyOrEnd outer, .rightBrace => some (.separator (.object []) outer)
  | .keyOrEnd outer, .string key => some (.colon [] key outer)
  | .key done outer, .string key => some (.colon done key outer)
  | .colon done key outer, .colon => some (.value (.members done key :: outer))
  | .separator v (.items done :: outer), .comma => some (.value (.items (done ++ [v]) :: outer))
  | .separator v (.items done :: outer), .rightBracket =>
    some (.separator (.array (done ++ [v])) outer)
  | .separator v (.members done key :: outer), .comma => some (.key (done ++ [(key, v)]) outer)
  | .separator v (.members done key :: outer), .rightBrace =>
    some (.separator (.object (done ++ [(key, v)])) outer)
  | _, _ => none

def treeFrom? : Due → List Token → Option Tree
  | .separator v [], [] => some v
  | _, [] => none
  | due, t :: rest => (treeStep? due t).bind fun due => treeFrom? due rest

/-- Reads a whole text. -/
def Tree.read? (text : String) : Option Tree :=
  (tokens? text.toList).bind (treeFrom? (.value []))

end Docbase.Json
