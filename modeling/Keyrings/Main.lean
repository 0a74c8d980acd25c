import Keyrings.CommandLine
import Keyrings.Machine
import Std.Time.DateTime.Timestamp

/-! The program: runs a routine on the real machine, with the system's clock, files and random
bytes, and prints what the command line makes of it. -/

namespace Keyrings.Main

/-- What the system says about a failed call. -/
def fileError (e : IO.Error) : FileError :=
  let ofNumber (n : UInt32) (text : String) : FileError :=
    FileError.ofNumber (if n < 2147483648 then n.toNat else (0 - n).toNat) text
  match e with
  | .alreadyExists _ n text | .invalidArgument _ n text | .permissionDenied _ n text
  | .resourceExhausted _ n text | .inappropriateType _ n text | .noSuchThing _ n text
  | .noFileOrDirectory _ n text | .interrupted _ n text | .otherError n text
  | .resourceBusy n text | .resourceVanished n text | .unsupportedOperation n text
  | .hardwareFault n text | .unsatisfiedConstraints n text | .illegalOperation n text
  | .protocolError n text | .timeExpired n text => ofNumber n text
  | .unexpectedEof => .other "unexpected end of file"
  | .userError text => .other text

/-- A call that may fail, with its failure as a value. -/
def attempt {α : Type} (call : IO α) : IO (Except FileError α) := do
  match ← call.toBaseIO with
  | .ok a => return .ok a
  | .error e => return .error (fileError e)

def setMode (path : String) (mode : Mode) : IO Unit :=
  let right (digit : Nat) : IO.AccessRight :=
    ⟨digit / 4 % 2 == 1, digit / 2 % 2 == 1, digit % 2 == 1⟩
  IO.setAccessRights path ⟨right (mode / 64), right (mode / 8), right mode⟩

/-- The longest sleep in one piece, in milliseconds. -/
def longestSleep : Nat := 2147483648

/-- Does a request on the real machine. -/
def perform : (r : Request) → IO r.Answer
  | .now => do
    let time ← Std.Time.Timestamp.now
    return Int64.ofInt time.toSecondsSinceUnixEpoch.val
  | .sleep time => do
    for _ in List.range (time.millis / longestSleep) do
      IO.sleep (UInt32.ofNat longestSleep)
    IO.sleep (UInt32.ofNat (time.millis % longestSleep))
  | .draw count => do
    match ← attempt (IO.getRandomBytes (USize.ofNat count)) with
    | .ok bytes => return (Draw.mk id (.ok bytes.toList)).block count
    | .error e =>
      return .error (.failed (.reported ("Failed to generate random bytes: " ++ e.message)))
  | .uuid => return Uuid.ofRandomBytes (← IO.getRandomBytes 16).toList
  | .read path => attempt do return (← IO.FS.readBinFile path.toString).toList
  | .create path mode => attempt do
    let _ ← IO.FS.Handle.mk path.toString .writeNew
    setMode path.toString mode
  | .store path bytes => attempt (IO.FS.writeBinFile path.toString ⟨bytes.toArray⟩)
  | .rename source target => attempt (IO.FS.rename source.toString target.toString)
  | .remove path => attempt (IO.FS.removeFile path.toString)
  | .makeDirectory path mode => attempt do
    IO.FS.createDir path.toString
    setMode path.toString mode

def execute {α : Type} : Routine α → IO α
  | .done a => return a
  | .ask r next => do execute (next (← perform r))

def textOf? (path : String) : IO (Option String) := do
  match ← attempt (IO.FS.readBinFile path) with
  | .ok bytes => return String.fromUTF8? bytes
  | .error _ => return none

def declared : IO Settings.Environment := do
  let block := (← textOf? "/proc/self/environ").getD ""
  return Settings.EnvFile.ofBlock block.toList

/-- The first file of variables in a directory or in one above it. -/
def envFile (directory : String) : IO (Option (List Char)) := do
  let names := (directory.splitOn "/").filter (!·.isEmpty)
  for n in (List.range (names.length + 1)).reverse do
    let above := String.join ((names.take n).map ("/" ++ ·))
    if let some text ← textOf? (above ++ "/.env") then return some text.toList
  return none

def accountNumber : IO (Option Nat) := do
  let status := (← textOf? "/proc/self/status").getD ""
  return (status.splitOn "\n").findSome? fun line =>
    match (line.splitOn "\t") with
    | "Uid:" :: number :: _ => number.toNat?
    | _ => none

/-- All that a run depends on from the start. -/
def surroundings : IO CommandLine.Surroundings := do
  let accounts := Account.ofTable ((← textOf? "/etc/passwd").getD "")
  let own := (← accountNumber).bind (Account.homeOf? accounts)
  return ⟨← declared, ← envFile (← IO.currentDir).toString, own, accounts⟩

end Keyrings.Main

def main (arguments : List String) : IO UInt32 := do
  let routine := Keyrings.CommandLine.run (← Keyrings.Main.surroundings) (arguments.map (·.toList))
  match ← Keyrings.Main.execute routine with
  | .ok lines =>
    for line in lines do IO.println line
    return 0
  | .error problem =>
    IO.eprintln ((if problem.severity = .told then "Error: " else "") ++ problem.message)
    return problem.status?.getD 134
