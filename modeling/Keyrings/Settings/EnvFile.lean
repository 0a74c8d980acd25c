import Keyrings.Text.Alphanumeric
import Keyrings.Text.Blank
import Keyrings.Text.Lines

/-! Files of variable assignments. A file is cut into logical lines, which end at a line feed
unless a quote or an escape is open; a line assigns a value to a name, or is empty or a comment.
The first line that is neither ends the file, and so does an open quote at its end. A variable
that is set already keeps its value. -/

namespace Keyrings.Settings

/-- The variables that are set, the oldest first. -/
abbrev Environment := List (List Char × List Char)

namespace EnvFile

/-! ### Logical lines -/

/-- Where in a line the reader is. -/
inductive Scan
  | plain
  | escape
  | strong
  | strongEscape
  | weak
  | weakEscape
  /-- Right after a first blank, where a number sign starts a comment. -/
  | blank
  deriving DecidableEq

def Scan.outside (c : Char) : Scan :=
  if c = '\\' then .escape
  else if c = '"' then .weak
  else if c = '\'' then .strong
  else .plain

def Scan.next (s : Scan) (c : Char) : Scan :=
  match s with
  | .blank => Scan.outside c
  | .escape => .plain
  | .plain => if Text.isBlank c && c != '\n' && c != '\r' then .blank else Scan.outside c
  | .weak => if c = '\\' then .weakEscape else if c = '"' then .plain else .weak
  | .weakEscape => .weak
  | .strong => if c = '\\' then .strongEscape else if c = '\'' then .plain else .strong
  | .strongEscape => .strong

/-- Reads along a piece of a line: the part before a comment if one starts, and the reader's place
at the end. -/
def Scan.along (s : Scan) : List Char → Option (List Char) × Scan
  | [] => (none, s)
  | c :: cs =>
    if s = .blank ∧ c = '#' then (some [], s)
    else
      let (beforeComment, last) := (s.next c).along cs
      (beforeComment.map (c :: ·), last)

def isComment (cs : List Char) : Bool := (Text.trimStart cs).head? == some '#'

/-- The logical lines made of pieces, given the reader's place and what the first line has so far; a
missing line stands for an end of the file inside quotes. -/
def join (s : Scan) (sofar : List Char) : List (List Char) → List (Option (List Char))
  | [] => if s = .plain then [] else [none]
  | piece :: rest =>
    let line := sofar ++ piece
    if isComment line then some [] :: join .plain [] rest
    else match s.along piece with
      | (some beforeComment, _) => some (sofar ++ beforeComment) :: join .plain [] rest
      | (none, .plain) => some (Text.dropLineFeed line) :: join .plain [] rest
      | (none, place) => join place line rest

/-- The logical lines of a file; a mark of byte order at its start is no part of them. -/
def logicalLines (contents : List Char) : List (Option (List Char)) :=
  join .plain [] (Text.cut (if contents.head? == some '\ufeff' then contents.drop 1 else contents))

/-! ### Values -/

/-- How a character of a value is taken. -/
inductive Mode
  | plain
  | strong
  | weak
  /-- After the blank that ends a value: only blanks and a comment may follow. -/
  | ended
  deriving DecidableEq

inductive Name
  | none
  /-- The letters and digits after a dollar sign. -/
  | bare (name : List Char)
  /-- Everything up to a closing brace. -/
  | braced (name : List Char)
  deriving DecidableEq

/-- A value being read: its mode, whether the last character was a backslash, the name being read,
and the output so far, its latest character first. -/
structure Reading where
  mode : Mode := .plain
  escaped : Bool := false
  name : Name := .none
  output : List Char := []

/-- The value of a variable, which is empty for one that is not set. A variable is found by its
text, which is its name, an equals sign and its value; so a name that holds an equals sign is that
of the variable whose text it starts. -/
def valueOf (env : Environment) (name : List Char) : List Char :=
  let start := name ++ ['=']
  let rest? := env.findSome? fun (key, value) =>
    let text := key ++ '=' :: value
    if start.isPrefixOf text then some (text.drop start.length) else none
  if name.isEmpty then [] else rest?.getD []

def Reading.ordinary (r : Reading) (c : Char) : Reading :=
  match r.mode with
  | .weak =>
    if c = '"' then { r with mode := .plain }
    else if c = '\\' then { r with escaped := true }
    else { r with output := c :: r.output }
  | _ =>
    if c = '\'' then { r with mode := .strong }
    else if c = '"' then { r with mode := .weak }
    else if c = '\\' then { r with escaped := true }
    else if c = ' ' || c = '\t' then { r with mode := .ended }
    else { r with output := c :: r.output }

def Reading.inName (env : Environment) (r : Reading) (c : Char) : Reading :=
  match r.name with
  | .none => r.ordinary c
  | .bare name =>
    if Text.isAlphanumeric c then { r with name := .bare (name ++ [c]) }
    else if c = '\x7b' && name.isEmpty then { r with name := .braced [] }
    else
      let output := (valueOf env name).reverse ++ r.output
      if c = '$' then { r with name := .bare [], output := output }
      else { r with name := .none, output := c :: output }
  | .braced name =>
    if c = '\x7d' then { r with name := .none, output := (valueOf env name).reverse ++ r.output }
    else { r with name := .braced (name ++ [c]) }

def unescape? (c : Char) : Option Char :=
  if c = 'n' then some '\n'
  else if c = '\\' || c = '\'' || c = '"' || c = '$' || c = ' ' then some c
  else none

def Reading.finish (env : Environment) (r : Reading) : List Char → Option (List Char)
  | [] =>
    match r.name with
    | .braced _ => none
    | .bare name => closed (r.output.reverse ++ valueOf env name)
    | .none => closed r.output.reverse
  | c :: cs =>
    if r.mode = .ended then
      if c = ' ' || c = '\t' then r.finish env cs
      else if c = '#' then Reading.finish env { r with name := .none } []
      else none
    else if r.escaped then
      match unescape? c with
      | some plain =>
        Reading.finish env { r with escaped := false, output := plain :: r.output } cs
      | none => none
    else if r.mode = .strong then
      if c = '\'' then Reading.finish env { r with mode := .plain } cs
      else Reading.finish env { r with output := c :: r.output } cs
    else if r.name ≠ .none then (r.inName env c).finish env cs
    else if c = '$' then Reading.finish env { r with name := .bare [] } cs
    else (r.ordinary c).finish env cs
where
  /-- The value as a whole, unless a quote is open. -/
  closed (output : List Char) : Option (List Char) :=
    if r.mode = .strong || r.mode = .weak then none else some output

/-! ### Assignments -/

/-- Splits the name off that a line starts with. -/
def takeName (line : List Char) : Option (List Char × List Char) :=
  let inName (c : Char) : Bool := c.isAlphanum || c = '_' || c = '.'
  match line with
  | [] => none
  | c :: _ =>
    if c.isAlpha || c = '_' then some (line.takeWhile inName, line.dropWhile inName) else none

def takeEquals : List Char → Option (List Char)
  | '=' :: rest => some rest
  | _ => none

/-- The name that a line assigns to, and the text of the value. The word export may stand before the
name. -/
def splitAssignment (line : List Char) : Option (List Char × List Char) := do
  let (name, rest) ← takeName line
  let rest := Text.trimStart rest
  match takeEquals rest with
  | some value => return (name, Text.trimStart value)
  | none =>
    if name = "export".toList then
      let (name, rest) ← takeName rest
      let value ← takeEquals (Text.trimStart rest)
      return (name, Text.trimStart value)
    else none

/-- Reads a logical line: nothing if it is at fault, and no assignment if it is empty or a
comment. -/
def assignment? (env : Environment) (line : List Char) : Option (Option (List Char × List Char)) :=
  let body := Text.trimStart (Text.trimEnd line)
  if body.isEmpty || body.head? == some '#' then some none
  else do
    let (name, text) ← splitAssignment body
    if text.isEmpty || text.head? == some '#' then return some (name, [])
    let value ← Reading.finish env {} text
    return some (name, value)

/-- The variables in a block of texts that each hold a name, an equals sign and a value, and end in
NUL. -/
def ofBlock (block : List Char) : Environment :=
  ((String.ofList block).splitOn "\x00").filterMap fun item =>
    let cs := item.toList
    let name := cs.takeWhile (· != '=')
    (takeEquals (cs.dropWhile (· != '='))).map (name, ·)

inductive Fault
  /-- The value for a variable has NUL in it, which no variable can hold. -/
  | nulInValue (name : List Char)
  deriving DecidableEq

def setNew (env : Environment) (name value : List Char) : Except Fault Environment :=
  if (env.lookup name).isSome then .ok env
  else if value.contains '\x00' then .error (.nulInValue name)
  else .ok (env ++ [(name, value)])

/-- Does the assignments of some logical lines, up to the first one at fault. -/
def loadLines (env : Environment) : List (Option (List Char)) → Except Fault Environment
  | [] => .ok env
  | none :: _ => .ok env
  | some line :: rest =>
    match assignment? env line with
    | none => .ok env
    | some none => loadLines env rest
    | some (some (name, value)) =>
      match setNew env name value with
      | .error fault => .error fault
      | .ok env => loadLines env rest

def load (env : Environment) (contents : List Char) : Except Fault Environment :=
  loadLines env (logicalLines contents)

end EnvFile

end Keyrings.Settings
