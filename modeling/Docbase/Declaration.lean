/-
Entity declarations: which fields of a declared type hold the identifier and the
tracker, and the collection it names.

A field takes a role if it is the only one marked with it, or, if none is, by
its conventional name. Marks are read from field to field, then the identifier
is picked, then the tracker, and the marks of the type itself come last; the
first fault in this order is reported.
-/

namespace Docbase.Declaration

/-- What follows the key of an argument. -/
inductive ArgumentValue where
  | absent
  | text (s : String)
  /-- A literal that is no string. -/
  | other
  deriving DecidableEq

structure Argument where
  key : String
  value : ArgumentValue
  deriving DecidableEq

/-- A mark on a field or a type; the argument list may be missing altogether. -/
structure Mark where
  path : String
  arguments : Option (List Argument)
  deriving DecidableEq

structure Field where
  name : String
  marks : List Mark
  deriving DecidableEq

inductive Shape where
  | record
  | tuple
  | unit
  | enumeration
  | union
  deriving DecidableEq

/-- A declared type. -/
structure Declared where
  shape : Shape
  marks : List Mark
  fields : List Field

inductive Role where
  | id
  | tracker
  deriving DecidableEq

/-- The word of a role, which is also the conventional name of its field. -/
def Role.word : Role → String
  | .id => "id"
  | .tracker => "tracker"

inductive Fault where
  | notRecord
  | noArguments
  | unknownTypeKey
  | unknownFieldKey
  | valueMissing
  | valueNotText
  | valueOnRole
  | roleMissing (role : Role)
  | roleRepeated (role : Role)
  deriving DecidableEq

namespace Fault

def roleMark (role : Role) : String := "`#[entity(" ++ role.word ++ ")]`"

def message : Fault → String
  | .notRecord => "Entity can only be derived for structs with named fields"
  | .noArguments => "expected attribute arguments in parentheses: #[entity(...)]"
  | .unknownTypeKey => "expected `collection = \"...\"`"
  | .unknownFieldKey => "expected `id` or `tracker`"
  | .valueMissing => "expected `=`"
  | .valueNotText => "expected string literal"
  | .valueOnRole => "expected `,`"
  | .roleMissing role =>
    "Entity requires a field named `" ++ role.word ++ "` or marked " ++ roleMark role
  | .roleRepeated role => "only one field may be marked " ++ roleMark role

end Fault

/-- The path of the marks that are read; all others are passed over. -/
def markPath : String := "entity"

/-- Reads the arguments of marks one by one, mark after mark. -/
def readMarks {α : Type} (read : α → Argument → Except Fault α) (start : α) (marks : List Mark) :
    Except Fault α :=
  (marks.filter fun m => m.path = markPath).foldlM
    (fun state m =>
      match m.arguments with
      | none => .error .noArguments
      | some arguments => arguments.foldlM read state) start

/-- The roles that a field is marked with. -/
structure Roles where
  id : Bool
  tracker : Bool
  deriving DecidableEq

def Roles.has (r : Roles) : Role → Bool
  | .id => r.id
  | .tracker => r.tracker

def readRole (r : Roles) (a : Argument) : Except Fault Roles :=
  if a.key = Role.id.word then
    if a.value = .absent then .ok { r with id := true } else .error .valueOnRole
  else if a.key = Role.tracker.word then
    if a.value = .absent then .ok { r with tracker := true } else .error .valueOnRole
  else .error .unknownFieldKey

/-- The marks of one field. -/
def fieldRoles (f : Field) : Except Fault Roles := readMarks readRole ⟨false, false⟩ f.marks

def readCollection (_ : Option String) (a : Argument) : Except Fault (Option String) :=
  if a.key = "collection" then
    match a.value with
    | .absent => .error .valueMissing
    | .text s => .ok (some s)
    | .other => .error .valueNotText
  else .error .unknownTypeKey

/-- The collection that the marks of a type name; the last one counts. -/
def collectionOf (marks : List Mark) : Except Fault (Option String) :=
  readMarks readCollection none marks

/-- The field of a role: the marked one, or else the one with the conventional name. -/
def pick (role : Role) (fields : List (String × Roles)) : Except Fault String :=
  match fields.filter fun f => f.2.has role with
  | [f] => .ok f.1
  | [] =>
    if fields.any fun f => f.1 = role.word then .ok role.word else .error (.roleMissing role)
  | _ => .error (.roleRepeated role)

/-- What a declaration settles. -/
structure Picked where
  id : String
  tracker : String
  collection : Option String
  deriving DecidableEq

def resolve (d : Declared) : Except Fault Picked := do
  if d.shape ≠ .record then throw .notRecord
  let fields ← d.fields.mapM fun f => (fieldRoles f).map fun r => (f.name, r)
  let id ← pick .id fields
  let tracker ← pick .tracker fields
  let collection ← collectionOf d.marks
  return ⟨id, tracker, collection⟩

end Docbase.Declaration
