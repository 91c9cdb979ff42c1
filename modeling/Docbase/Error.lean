/-
The causes for which an operation is refused, and the one place where each gets
its words.
-/

namespace Docbase

/-- What the document store itself refuses. -/
inductive StoreFault where
  /-- A membership test whose operand is no list, met while a document is tested. -/
  | membershipOverScalar
  /-- A membership test whose operand is no list, met while a filter is written with `operator`. -/
  | operandNotArray (operator : String)
  | textIndexMissing
  | secondTextIndex (collection : String)
  | mixedSelection
  | idChanged
  | callRefused (call : String)
  deriving DecidableEq

/-- A setting without which no connection can be opened. -/
inductive SettingsFault where
  | emptyConnection
  | emptyDatabase
  deriving DecidableEq

inductive Error where
  /-- An expression outside the grammar; carries the whole trimmed text. -/
  | invalidExpression (token : String)
  /-- The presence of an identifier contradicts the tracker state. -/
  | incoherentEntityState (type : String)
  /-- An entity type, or a document, has no identifier kept under `_id`. -/
  | propertyIdNotFound (type : String)
  /-- A repository was used before it was bound to a context. -/
  | contextNotInitialized (owner : String)
  | invalidArgument (name : String)
  | alreadyExists (id collection : String)
  /-- A value does not fit the form it is read from or written to. -/
  | serialization
  | settings (fault : SettingsFault)
  | store (fault : StoreFault)
  deriving DecidableEq

namespace StoreFault

def message : StoreFault → String
  | .membershipOverScalar => "membership test requires an array of values"
  | .operandNotArray operator => operator ++ " requires an array value"
  | .textIndexMissing => "text index required for text search"
  | .secondTextIndex collection => "collection " ++ collection ++ " already has a text index"
  | .mixedSelection => "cannot mix inclusion and exclusion in one projection"
  | .idChanged => "the _id field cannot be changed"
  | .callRefused call => call ++ " refused"

end StoreFault

def SettingsFault.message : SettingsFault → String
  | .emptyConnection => "connection string is empty"
  | .emptyDatabase => "database name is empty"

namespace Error

def message : Error → String
  | .invalidExpression token => "Invalid filter expression: " ++ token
  | .incoherentEntityState type => "Incoherent entity state: " ++ type
  | .propertyIdNotFound type => "Property Id not found on " ++ type
  | .contextNotInitialized owner => "Repository context not initialized: " ++ owner
  | .invalidArgument name => "Invalid argument: " ++ name
  | .alreadyExists id collection =>
    "Document " ++ id ++ " already exists in collection " ++ collection
  | .serialization => "Serialization error"
  | .settings fault => "Initialization error: " ++ fault.message
  | .store fault => "Backend error: " ++ fault.message

end Error

abbrev Result (α : Type) := Except Error α

end Docbase
