import Keyrings.Settings.Value

/-! Names of variables that are settings. After a lead that names the program, in any case, comes
a word that names the setting; steps into its parts may follow. A number of a part is counted from
the start of the parts, or from their end if it is negative. -/

namespace Keyrings.Settings

/-- The lead of all variables that are settings. -/
def lead : String := "HOMEKEYS"

inductive Step
  | part (name : List Char)
  | index (n : Int)
  deriving DecidableEq

/-- Why a setting without parts cannot be given one at an index. -/
inductive IndexFault
  /-- The index counts back to before the first part. -/
  | beforeStart
  /-- No part can have the number. -/
  | beyondEnd
  /-- There is no memory for that many parts. -/
  | outOfMemory
  deriving DecidableEq

/-- The most parts that can be numbered: what half of all addresses have room for, at 96 bytes for
a part. -/
def partLimit : Int := 96076792050570581

/-- The most parts that there is memory for, of which 32 GiB are taken to be there. -/
def memoryLimit : Int := 357913941

/-- Why a step cannot be taken in a setting without parts, if it cannot. -/
def Step.fault? : Step → Option IndexFault
  | .part _ => none
  | .index n =>
    if n < 0 then some .beforeStart
    else if partLimit ≤ n then some .beyondEnd
    else if memoryLimit ≤ n then some .outOfMemory
    else none

structure Name where
  word : List Char
  steps : List Step
  deriving DecidableEq

namespace Name

/-- The lower-case form, as far as it is an ASCII letter; the Kelvin sign is an upper-case k. -/
def lower (c : Char) : Char := if c = '\u212a' then 'k' else c.toLower

def inWord (c : Char) : Bool := c.isAlphanum || c = '_' || c = '-' || c = ' '

def isBlank (c : Char) : Bool := c = ' ' || c = '\t'

/-- Reads an index and the bracket that closes it, and gives what follows too. -/
def index? (cs : List Char) : Option (Int × List Char) :=
  let (negative, body) : Bool × List Char := match cs.dropWhile isBlank with
    | '-' :: rest => (true, rest)
    | rest => (false, rest)
  let digits := body.takeWhile Char.isDigit
  match (body.dropWhile Char.isDigit).dropWhile isBlank with
  | ']' :: rest =>
    if digits.isEmpty then none else (Decimal.pushAll negative 0 digits).map (·, rest)
  | _ => none

/-- The steps written in a text: a full stop before a name, brackets around a number. The number of
steps is below the given bound. -/
def steps? : Nat → List Char → Option (List Step)
  | _, [] => some []
  | 0, _ => none
  | bound + 1, '.' :: cs =>
    let name := cs.takeWhile inWord
    if name.isEmpty then none else (steps? bound (cs.dropWhile inWord)).map (.part name :: ·)
  | bound + 1, '[' :: cs =>
    match index? cs with
    | none => none
    | some (n, rest) => (steps? bound rest).map (.index n :: ·)
  | _, _ => none

/-- The name of a setting in the name of a variable without its lead. A text that is no word with
steps is a word as a whole. -/
def ofText (cs : List Char) : Name :=
  let word := cs.takeWhile inWord
  match word, steps? cs.length (cs.dropWhile inWord) with
  | _ :: _, some steps => ⟨word, steps⟩
  | _, _ => ⟨cs, []⟩

/-- The name of the setting in a variable with the given name, if it holds one. -/
def ofVariable? (name : List Char) : Option Name :=
  let start := (lead ++ "_").toList.map lower
  let cs := name.map lower
  if start.isPrefixOf cs then some (ofText (cs.drop start.length)) else none

/-- What a setting is after a value was put at the end of the steps. -/
def value (steps : List Step) (v : Value) : Value :=
  match steps with
  | [] => v
  | .part _ :: _ => .table
  | .index _ :: _ => .sequence

end Name

end Keyrings.Settings
