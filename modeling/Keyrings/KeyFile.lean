import Keyrings.Line
import Keyrings.Text.Lines
import Keyrings.Text.Plain

/-! The contents of a keyring file. Reading is tolerant: a file with a byte outside the text range
holds no key, a line at fault is passed over, and of the keys with one identifier the first is
taken. -/

namespace Keyrings.KeyFile

/-- The keys read so far with the key of one more line, if it holds one with a new identifier. -/
def addLine (now : Instant) (keys : List Key) (line : List Char) : List Key :=
  match Line.parse line now with
  | .ok key => if hasId keys key.id then keys else keys ++ [key]
  | .error _ => keys

/-- The keys in the contents of a file at the time `now`, in the order of their lines. -/
def parse (contents : List UInt8) (now : Instant) : List Key :=
  if Text.Plain.isPlain contents then
    (Text.lines (Text.Plain.characters contents)).foldl (addLine now) []
  else []

/-- The text of a file with one line a key. -/
def render (keys : List Key) : List Char := keys.flatMap Line.render

def serialize (keys : List Key) : List UInt8 := Text.Plain.bytes (render keys)

end Keyrings.KeyFile
