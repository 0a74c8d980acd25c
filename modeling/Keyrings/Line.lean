import Keyrings.Decimal
import Keyrings.Key

/-! One line of a keyring file: an identifier, a creation time and a secret in hexadecimal,
separated by blanks. Reading checks the fields from left to right and names the first one at
fault. -/

namespace Keyrings

/-- The requirement of a line that fails first. -/
inductive LineFault
  | malformedId
  | idOutOfRange
  | malformedTimestamp
  | timestampOutOfRange
  | missingSecret
  | invalidHex
  deriving DecidableEq

namespace Line

/-- The blanks between fields. -/
def isGap (c : Char) : Bool := c = ' ' || c = '\t'

def trimEnd (cs : List Char) : List Char := (cs.reverse.dropWhile isGap).reverse

def maxId : Int := 2147483647

def parse (line : List Char) (now : Instant) : Except LineFault Key :=
  match Decimal.scan line with
  | none => .error .malformedId
  | some (id, afterId) =>
    if id < 0 ∨ maxId < id then .error .idOutOfRange
    else match Decimal.scan (afterId.dropWhile isGap) with
      | none => .error .malformedTimestamp
      | some (seconds, afterTime) =>
        if !isAcceptable (Int64.ofInt seconds) now then .error .timestampOutOfRange
        else
          let digits := trimEnd (afterTime.dropWhile isGap)
          if digits.isEmpty then .error .missingSecret
          else match Hex.decode digits with
            | none => .error .invalidHex
            | some secret => .ok ⟨Int32.ofInt id, Int64.ofInt seconds, secret⟩

/-- Writes a key as a line, with the line feed at its end. -/
def render (k : Key) : List Char :=
  Decimal.render k.id.toInt ++ ' ' ::
    (Decimal.render k.created.toInt ++ ' ' :: (k.hexSecret ++ ['\n']))

end Line

end Keyrings
