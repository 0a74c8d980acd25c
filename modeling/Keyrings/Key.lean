import Keyrings.Hex
import Keyrings.Time

/-! Keys and the three windows of their life. A key is recent for five minutes after its creation,
it is kept for seven, and a key from up to five minutes ahead of the clock is still accepted.
Every comparison saturates instead of wrapping. -/

namespace Keyrings

def secretLength : Nat := 24

def recentFor : Int := 300

def keptFor : Int := 420

/-- How many seconds ahead of the clock a key may have been created. -/
def aheadBy : Int := 300

/-- A short-lived secret with the identifier that names it to the other side. -/
structure Key where
  id : Int32
  created : Instant
  secret : List UInt8
  deriving DecidableEq

/-- Whether a key created at `t` belongs into a keyring at `now`: neither before 1970, nor too far
ahead, nor expired. -/
def isAcceptable (t now : Instant) : Bool :=
  0 ≤ t && t ≤ now.plus aheadBy && now.plus (-keptFor) ≤ t

namespace Key

/-- The seconds since a key's creation, negative for a key from ahead. -/
def age (k : Key) (now : Instant) : Int64 := now.since k.created

/-- Whether a key is young enough to be handed out. -/
def isRecent (k : Key) (now : Instant) : Bool := now.plus (-recentFor) < k.created

def isWithinLifetime (k : Key) (now : Instant) : Bool := isAcceptable k.created now

def hexSecret (k : Key) : List Char := Hex.encode k.secret

/-- The names and values that describe a key; of its secret only the length is told. -/
def fields (k : Key) : List (String × String) :=
  [("id", toString k.id.toInt), ("creation_time", toString k.created.toInt),
   ("secret_len", toString k.secret.length)]

def describe (k : Key) : String :=
  "Key \x7b " ++ ", ".intercalate (k.fields.map fun (name, value) => name ++ ": " ++ value) ++
    " \x7d"

def describeLines (k : Key) : String :=
  let line (name value : String) := "    " ++ name ++ ": " ++ value ++ ",\n"
  "Key \x7b\n" ++ String.join (k.fields.map fun (name, value) => line name value) ++ "\x7d"

end Key

def findRecent (keys : List Key) (now : Instant) : Option Key := keys.find? (·.isRecent now)

def findId (keys : List Key) (id : Int32) : Option Key := keys.find? (·.id == id)

def hasId (keys : List Key) (id : Int32) : Bool := keys.any (·.id == id)

end Keyrings
