/-! Binary floating point with 53 significant bits, in exact arithmetic. A number is read from its
decimal form by rounding to the nearest value, a tie going to the even one, and written with the
fewest digits that are read back as the same value, and of those with the digits nearest to it. -/

namespace Keyrings

/-- A floating-point value; a finite one is a multiple of a power of two. -/
inductive Binary64
  | finite (negative : Bool) (mantissa : Nat) (exponent : Int)
  | infinite (negative : Bool)
  | notANumber
  deriving DecidableEq

/-- A decimal number without sign: a multiple of a power of ten. -/
structure Scientific where
  digits : Nat
  exponent : Int
  deriving DecidableEq

def digitCount (n : Nat) : Nat := (Nat.toDigits 10 n).length

namespace Binary64

def minExponent : Int := -1074

def maxExponent : Int := 971

def mantissaBound : Nat := 9007199254740992

/-- The integer nearest to a quotient; the even one of two. -/
def roundToEven (num den : Nat) : Nat :=
  let q := num / den
  let rest := 2 * (num % den)
  if rest < den then q
  else if den < rest then q + 1
  else q + q % 2

/-- The integer nearest to a quotient; the larger one of two. -/
def roundHalfUp (num den : Nat) : Nat := (2 * num + den) / (2 * den)

/-- A quotient scaled by a power of a base, as a quotient. -/
def scale (base num den : Nat) (exponent : Int) : Nat × Nat :=
  if 0 ≤ exponent then (num * Nat.pow base exponent.toNat, den)
  else (num, den * Nat.pow base (-exponent).toNat)

/-- The largest power of two that is not above a positive quotient, as an exponent. -/
def floorLog2 (num den : Nat) : Int :=
  let guess : Int := (num.log2 : Int) - den.log2
  let (n, d) := scale 2 num den (-guess)
  if d ≤ n then guess else guess - 1

/-- The largest power of ten that is not above a positive quotient, as an exponent. -/
def floorLog10 (num den : Nat) : Int :=
  if den ≤ num then (digitCount (num / den) : Int) - 1
  else -(digitCount ((den + num - 1) / num - 1) : Int)

/-- The value nearest to a quotient. -/
def ofQuotient (negative : Bool) (num den : Nat) : Binary64 :=
  if num = 0 then .finite negative 0 minExponent
  else
    let exponent := max minExponent (floorLog2 num den - 52)
    let (n, d) := scale 2 num den (-exponent)
    let mantissa := roundToEven n d
    let (mantissa, exponent) :=
      if mantissa = mantissaBound then (mantissaBound / 2, exponent + 1) else (mantissa, exponent)
    if maxExponent < exponent then .infinite negative else .finite negative mantissa exponent

/-! ### Reading -/

/-- Compares a text with a lower-case word of ASCII letters, in any case. -/
def isWord (cs : List Char) (word : String) : Bool := cs.map Char.toLower == word.toList

def natOfDigits (cs : List Char) : Nat := cs.foldl (fun acc c => acc * 10 + (c.toNat - 48)) 0

/-- The value nearest to a number, given by its digits with no zero in front and by the power of ten
that they are multiplied by. Numbers far outside the range need no arithmetic. -/
def ofDigits (negative : Bool) (digits : List Char) (exponent : Int) : Binary64 :=
  let magnitude : Int := digits.length + exponent
  if digits.isEmpty ∨ magnitude < -330 then .finite negative 0 minExponent
  else if 310 < magnitude then .infinite negative
  else
    let (num, den) := scale 10 (natOfDigits digits) 1 exponent
    ofQuotient negative num den

/-- Digits without the zeros around them, and the exponent that goes with these digits. -/
def stripZeros (digits : List Char) (exponent : Int) : List Char × Int :=
  let zeros := (digits.reverse.takeWhile (· = '0')).length
  ((digits.take (digits.length - zeros)).dropWhile (· = '0'), exponent + zeros)

/-- The size from which on an exponent takes no further digits. -/
def exponentLimit : Nat := 65536

/-- The size of an exponent with some digits. Digits after those that reach the limit do not
count. -/
def exponentSize (digits : List Char) : Nat :=
  digits.foldl (fun n c => if n < exponentLimit then n * 10 + (c.toNat - 48) else n) 0

/-- Reads the exponent after a mantissa: nothing, or a letter, an optional sign and digits. -/
def exponent? : List Char → Option Int
  | [] => some 0
  | c :: cs =>
    if c = 'e' || c = 'E' then
      let (negative, digits) : Bool × List Char := match cs with
        | '-' :: rest => (true, rest)
        | '+' :: rest => (false, rest)
        | rest => (false, rest)
      if digits.isEmpty || !digits.all Char.isDigit then none
      else some (if negative then -(exponentSize digits : Int) else exponentSize digits)
    else none

/-- Reads a decimal number without sign: digits with an optional point among or around them, and an
optional exponent. Gives the digits without zeros around them, and the power of ten. -/
def decimal? (cs : List Char) : Option (List Char × Int) := do
  let whole := cs.takeWhile Char.isDigit
  let (fraction, rest) : List Char × List Char := match cs.dropWhile Char.isDigit with
    | '.' :: rest => (rest.takeWhile Char.isDigit, rest.dropWhile Char.isDigit)
    | rest => ([], rest)
  guard !(whole.isEmpty && fraction.isEmpty)
  let exponent ← exponent? rest
  return stripZeros (whole ++ fraction) (exponent - fraction.length)

/-- Reads a value: an optional sign, and a decimal number or a word for infinity or for no number.
-/
def ofText? (cs : List Char) : Option Binary64 :=
  let (negative, body) : Bool × List Char := match cs with
    | '-' :: rest => (true, rest)
    | '+' :: rest => (false, rest)
    | rest => (false, rest)
  if isWord body "inf" || isWord body "infinity" then some (.infinite negative)
  else if isWord body "nan" then some .notANumber
  else (decimal? body).map fun (digits, exponent) => ofDigits negative digits exponent

/-! ### Writing -/

/-- The quotients between which a positive number is read as the value, and whether these two
themselves are. Below a power of two the values are twice as dense. -/
def interval (mantissa : Nat) (exponent : Int) : (Nat × Nat) × (Nat × Nat) × Bool :=
  let narrow := mantissa = mantissaBound / 2 ∧ minExponent < exponent
  let below := if narrow then 4 * mantissa - 1 else 4 * mantissa - 2
  (scale 2 below 4 exponent, scale 2 (4 * mantissa + 2) 4 exponent, mantissa % 2 = 0)

def contains (i : (Nat × Nat) × (Nat × Nat) × Bool) (s : Scientific) : Bool :=
  let (n, d) := scale 10 s.digits 1 s.exponent
  let ((ln, ld), (hn, hd), closed) := i
  if closed then ln * d ≤ n * ld && n * hd ≤ hn * d else ln * d < n * ld && n * hd < hn * d

/-- Of the two decimal numbers with the given number of digits beside a value, the nearer one that
is read as the value. -/
def candidate? (mantissa : Nat) (exponent : Int) (count : Nat) : Option Scientific :=
  let (num, den) := scale 2 mantissa 1 exponent
  let place := floorLog10 num den + 1 - count
  let (n, d) := scale 10 num den (-place)
  let carry (digits : Nat) : Scientific :=
    if digits = Nat.pow 10 count then ⟨Nat.pow 10 (count - 1), place + 1⟩ else ⟨digits, place⟩
  let nearest := carry (roundHalfUp n d)
  let low := carry (n / d)
  let high := carry (n / d + 1)
  let i := interval mantissa exponent
  if contains i nearest then some nearest
  else if contains i low then some low
  else if contains i high then some high
  else none

/-- The decimal number with the fewest digits that is read as a positive value. Seventeen digits
always suffice. -/
def shortest (mantissa : Nat) (exponent : Int) : Scientific :=
  ((List.range 17).findSome? fun i => candidate? mantissa exponent (i + 1)).getD ⟨mantissa, 0⟩

/-- A decimal number without exponent: zeros fill the places up to the point. -/
def positional (s : Scientific) : List Char :=
  let digits := Nat.toDigits 10 s.digits
  if 0 ≤ s.exponent then
    if s.digits = 0 then digits else digits ++ List.replicate s.exponent.toNat '0'
  else
    let places := (-s.exponent).toNat
    if places < digits.length then
      digits.take (digits.length - places) ++ '.' :: digits.drop (digits.length - places)
    else '0' :: '.' :: (List.replicate (places - digits.length) '0' ++ digits)

/-- Writes a value with the fewest digits, never with an exponent. -/
def render : Binary64 → List Char
  | .notANumber => "NaN".toList
  | .infinite negative => (if negative then "-inf" else "inf").toList
  | .finite negative mantissa exponent =>
    let body := if mantissa = 0 then ['0'] else positional (shortest mantissa exponent)
    if negative then '-' :: body else body

def maxCount : Nat := 18446744073709551615

/-- The natural number nearest to a value, a half going up, within 64 bits; anything below zero
and what is no number gives zero. -/
def toCount : Binary64 → Nat
  | .notANumber => 0
  | .infinite negative => if negative then 0 else maxCount
  | .finite negative mantissa exponent =>
    if negative then 0
    else
      let (num, den) := scale 2 mantissa 1 exponent
      min maxCount (roundHalfUp num den)

end Binary64

end Keyrings
