/-
The transaction state of one unit of work. A request reaches the store only if
the store supports transactions and the request changes the state: a start while
none is open, a commit or an abort while one is. The state follows the calls
that the store grants.
-/
import Docbase.Error

namespace Docbase

/-- A call on the store that opens or closes a transaction. -/
inductive TransactionCall where
  | start
  | commit
  | abort
  deriving DecidableEq

namespace TransactionCall

def word : TransactionCall → String
  | .start => "start"
  | .commit => "commit"
  | .abort => "abort"

def ofWord? (word : String) : Option TransactionCall :=
  [start, commit, abort].find? fun c => c.word = word

/-- Whether the call finds the state that it changes. -/
def applies (call : TransactionCall) (inTransaction : Bool) : Bool :=
  match call with
  | .start => !inTransaction
  | .commit | .abort => inTransaction

/-- The state after the call has been granted. -/
def opens : TransactionCall → Bool
  | .start => true
  | .commit | .abort => false

end TransactionCall

structure Session where
  inTransaction : Bool
  deriving DecidableEq

namespace Session

def idle : Session := ⟨false⟩

/-- Whether a request has to be made of the store. -/
def reaches (s : Session) (supported : Bool) (call : TransactionCall) : Bool :=
  supported && call.applies s.inTransaction

/-- The session after the store has answered a call. -/
def answered (s : Session) (call : TransactionCall) (answer : Result Unit) : Session :=
  match answer with
  | .ok _ => ⟨call.opens⟩
  | .error _ => s

end Session
end Docbase
