import Keyrings.FileError
import Keyrings.Path
import Keyrings.Text.Quoted

/-! What goes wrong with a keyring. A fault is a cause, its kind says how callers may react to it,
and its message is made from the cause alone. -/

namespace Keyrings

/-- The causes for which an operation on a keyring fails. -/
inductive Failure
  /-- A keyring was opened under a name that is no context. -/
  | invalidContext
  /-- No identifier was free after the given number of attempts. -/
  | noFreeId (attempts : Nat)
  /-- A new key was saved and yet no loaded key is recent. -/
  | noRecentKey
  /-- The lock marker could not be created, not even after removing a stale one. -/
  | markerStuck (marker : Path) (reason : FileError)
  /-- The keyring could not be locked to add a key. -/
  | notLocked (reason : Failure)
  /-- Nobody is logged in, or at least has no home. -/
  | ownHomeUnknown
  /-- A user is unknown or has no home. -/
  | homeUnknown (user : List Char)
  /-- A failure that came from outside, with its text. -/
  | reported (text : String)
  deriving DecidableEq

/-- What is wrong with a value that was passed in. -/
inductive Rejection
  /-- The text is no context. -/
  | context (text : List Char)
  /-- A rejection that came from outside, with its text. -/
  | reported (text : String)
  deriving DecidableEq

inductive Fault
  | outOfMemory (text : String)
  | failed (failure : Failure)
  | file (error : FileError)
  | invalidInput (rejection : Rejection)
  deriving DecidableEq

def Failure.message : Failure → String
  | .invalidContext => "Invalid context in keyring creation"
  | .noFreeId attempts =>
    "Could not generate a unique key ID after " ++ toString attempts ++ " attempts"
  | .noRecentKey => "No recent-enough key found in keyring, and unable to create a new key"
  | .markerStuck marker reason =>
    "Couldn't create lock file " ++ marker.toString ++ " after deleting stale one: " ++
      reason.message
  | .notLocked reason => "Could not lock keyring file to add to it: " ++ reason.message
  | .ownHomeUnknown => "Could not determine home directory of current user"
  | .homeUnknown user => "No home directory found for user " ++ String.ofList user
  | .reported text => text

def Rejection.message : Rejection → String
  | .context text => "Invalid keyring context: " ++ String.ofList (Text.Quoted.encode text)
  | .reported text => text

namespace Fault

/-- The message of a fault: its kind, then its cause. -/
def message : Fault → String
  | .outOfMemory text => "Out of memory: " ++ text
  | .failed failure => "Keyring operation failed: " ++ failure.message
  | .file error => "IO error: " ++ error.message
  | .invalidInput rejection => "Invalid input: " ++ rejection.message

/-- Whether the operation as such failed, rather than its memory, its files or its input. -/
def isFailed : Fault → Bool
  | .failed _ => true
  | _ => false

/-- The text of the error underneath a fault, where there is one. -/
def source? : Fault → Option String
  | .file error => some error.message
  | _ => none

end Fault

end Keyrings
