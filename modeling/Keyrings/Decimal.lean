/-! Signed decimal integers at the front of a text. Reading skips blanks, takes one optional sign
and the longest run of digits after it, and gives up when the value leaves the signed 64-bit range
at any point of the run. Writing gives the plain decimal form. -/

namespace Keyrings.Decimal

/-- The blanks that may stand before a number: space, tab, line feed, vertical tab, form feed and
carriage return. -/
def isBlank (c : Char) : Bool :=
  c = ' ' || c = '\t' || c = '\n' || c = '\x0b' || c = '\x0c' || c = '\r'

/-- Whether an integer fits into 64 signed bits. -/
def inRange (x : Int) : Bool := -9223372036854775808 ≤ x && x ≤ 9223372036854775807

def digitValue (c : Char) : Int := c.toNat - 48

/-- Appends one digit to the number read so far, away from zero. Both the product and the sum must
fit. -/
def push (negative : Bool) (acc : Int) (c : Char) : Option Int :=
  let tens := acc * 10
  if inRange tens then
    let next := if negative then tens - digitValue c else tens + digitValue c
    if inRange next then some next else none
  else none

def pushAll (negative : Bool) (acc : Int) : List Char → Option Int
  | [] => some acc
  | c :: cs => (push negative acc c).bind (pushAll negative · cs)

/-- Splits an optional sign off: whether the number is negative, and the text after the sign. -/
def splitSign : List Char → Bool × List Char
  | '-' :: rest => (true, rest)
  | '+' :: rest => (false, rest)
  | cs => (false, cs)

/-- Reads a number at the front of a text and returns it with the text that follows its digits. -/
def scan (cs : List Char) : Option (Int × List Char) :=
  let (negative, body) := splitSign (cs.dropWhile isBlank)
  let digits := body.takeWhile Char.isDigit
  if digits.isEmpty then none
  else (pushAll negative 0 digits).map fun value => (value, body.dropWhile Char.isDigit)

/-- The plain decimal form, with a minus sign below zero. -/
def render (x : Int) : List Char :=
  if x < 0 then '-' :: Nat.toDigits 10 x.natAbs else Nat.toDigits 10 x.natAbs

end Keyrings.Decimal
