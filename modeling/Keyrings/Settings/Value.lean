import Keyrings.Binary64
import Keyrings.Decimal
import Keyrings.Text.Quoted

/-! Values of settings. A setting is written as text, and what it looks like decides what it is: a
truth value, a whole number, a floating-point number or just text. What is asked for is made out
of that. -/

namespace Keyrings.Settings

inductive Value
  | flag (b : Bool)
  | whole (n : Int)
  | float (x : Binary64)
  | text (cs : List Char)
  /-- A setting with named parts. -/
  | table
  /-- A setting with numbered parts. -/
  | sequence
  deriving DecidableEq

/-- Why a setting cannot be what is asked for. -/
inductive Mismatch
  /-- It has parts, and text is asked for. -/
  | notText (found : Value)
  /-- It is no number, and a count is asked for. -/
  | notCount (found : Value)
  /-- It is below zero, and a count is asked for. -/
  | negative (n : Int)
  /-- It is beyond 32 bits, and a count in 32 bits is asked for. -/
  | tooLarge (n : Nat)
  deriving DecidableEq

def ticked (s : String) : String := "\x60" ++ s ++ "\x60"

namespace Value

/-- Reads a whole number that is the entire text: an optional sign and digits. -/
def wholeOfText? (cs : List Char) : Option Int :=
  match Decimal.splitSign cs with
  | (negative, digits) =>
    if digits.isEmpty || !digits.all Char.isDigit then none else Decimal.pushAll negative 0 digits

/-- What a text looks like. -/
def ofText (cs : List Char) : Value :=
  if Binary64.isWord cs "true" then .flag true
  else if Binary64.isWord cs "false" then .flag false
  else match wholeOfText? cs with
    | some n => .whole n
    | none =>
      match Binary64.ofText? cs with
      | some x => .float x
      | none => .text cs

def describe : Value → String
  | .flag b => "boolean " ++ ticked (if b then "true" else "false")
  | .whole n => "64-bit integer " ++ ticked (toString n)
  | .float x => "floating point " ++ ticked (String.ofList x.render)
  | .text cs => "string " ++ String.ofList (Text.Quoted.encode cs)
  | .table => "map"
  | .sequence => "sequence"

/-- A value as text: that of a text is the text itself, and every other value is written anew. -/
def asText : Value → Except Mismatch (List Char)
  | .flag b => .ok (if b then "true" else "false").toList
  | .whole n => .ok (Decimal.render n)
  | .float x => .ok x.render
  | .text cs => .ok cs
  | v => .error (.notText v)

/-- A value as a count in 64 bits. Words for truth values stand for one and zero. -/
def asCount : Value → Except Mismatch Nat
  | .flag b => .ok (if b then 1 else 0)
  | .whole n =>
    if 0 ≤ n then .ok n.toNat
    else .error (.negative n)
  | .float x => .ok x.toCount
  | .text cs =>
    if ["true", "on", "yes"].any (Binary64.isWord cs) then .ok 1
    else if ["false", "off", "no"].any (Binary64.isWord cs) then .ok 0
    else .error (.notCount (.text cs))
  | v => .error (.notCount v)

def asSmallCount (v : Value) : Except Mismatch Nat :=
  match v.asCount with
  | .error e => .error e
  | .ok n => if n < 4294967296 then .ok n else .error (.tooLarge n)

end Value

namespace Mismatch

/-- What a setting is, and what is asked for. -/
def terms : Mismatch → String × String
  | .notText v => (v.describe, "a string")
  | .notCount v => (v.describe, "an integer")
  | .negative n => ((Value.whole n).describe, "an unsigned 64 bit or less integer")
  | .tooLarge n =>
    ("64-bit unsigned integer " ++ ticked (toString n), "an unsigned 32 bit integer")

/-- Whether it is known that the setting comes from a variable. This is so for a value as it was
given, and for neither a setting with parts nor a count that was made out of a value. -/
def isPlaced : Mismatch → Bool
  | .notCount (.text _) | .negative _ => true
  | _ => false

def message (word : String) (m : Mismatch) : String :=
  let (found, expected) := m.terms
  "invalid type: " ++ found ++ ", expected " ++ expected ++ " for key " ++ ticked word ++
    (if m.isPlaced then " in the environment" else "")

end Mismatch

end Keyrings.Settings
