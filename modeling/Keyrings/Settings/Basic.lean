import Keyrings.Home
import Keyrings.Settings.EnvFile
import Keyrings.Settings.Name

/-! The settings of the command line: where homes and keyrings are, how locks are taken, and what is
logged in which format. They come from variables; each has a default, apart from the home. -/

namespace Keyrings

structure Settings where
  /-- The home of everybody, if it is not looked up. -/
  homeDir? : Option (List Char)
  keyringSubdir : List Char
  lockMaxTimeouts : Nat
  lockTimeoutMillis : Nat
  logLevel : List Char
  logFormat : List Char
  deriving DecidableEq

namespace Settings

inductive LogFormat
  | console
  | json
  deriving DecidableEq

inductive Fault
  /-- A setting is not of its kind. -/
  | mismatch (word : String) (reason : Mismatch)
  | emptySubdir
  | unknownLogFormat (text : List Char)
  /-- The file of variables cannot be loaded. -/
  | envFile (fault : EnvFile.Fault)
  /-- A setting is given a part at an index where it cannot have one. -/
  | index (reason : IndexFault)
  deriving DecidableEq

def Fault.message : Fault → String
  | .mismatch word reason => reason.message word
  | .emptySubdir => "keyring_subdir must not be empty"
  | .unknownLogFormat text => "log_format must be console or json, got " ++ String.ofList text
  | .envFile (.nulInValue name) => "NUL in the value for " ++ ticked (String.ofList name)
  | .index .beforeStart => "index before the first part"
  | .index .beyondEnd => "index too large for any part"
  | .index .outOfMemory => "no memory for all parts up to the index"

inductive Severity
  /-- It is told of, and the run ends in good order. -/
  | told
  /-- The run breaks off. -/
  | broken
  /-- The run is killed, and ends without a status. -/
  | killed
  deriving DecidableEq

def Fault.severity : Fault → Severity
  | .envFile _ | .index .beforeStart | .index .beyondEnd => .broken
  | .index .outOfMemory => .killed
  | _ => .told

/-- The settings given by variables, the latest first. -/
def collect (env : Environment) : List (Name × List Char) :=
  (env.filterMap fun (name, text) => (Name.ofVariable? name).map (·, text)).reverse

/-- What a word is set to, if it is. Of several variables for one word the latest counts. -/
def value? (given : List (Name × List Char)) (word : String) : Option Value :=
  (given.find? fun (name, _) => name.word == word.toList).map fun (name, text) =>
    Name.value name.steps (Value.ofText text)

/-- What a word is set to in the way that it is asked for, or its default. -/
def get {α : Type} (given : List (Name × List Char)) (word : String) (default : α)
    (convert : Value → Except Mismatch α) : Except Fault α :=
  match value? given word with
  | none => .ok default
  | some v =>
    match convert v with
    | .ok a => .ok a
    | .error reason => .error (.mismatch word reason)

def LogFormat.ofText? (text : List Char) : Option LogFormat :=
  if text = "console".toList then some .console
  else if text = "json".toList then some .json
  else none

/-- The settings, if they make sense together: there is a directory of keyrings, and the log
format is known. -/
def validate (s : Settings) : Except Fault Settings :=
  if s.keyringSubdir.isEmpty then .error .emptySubdir
  else match LogFormat.ofText? s.logFormat with
    | none => .error (.unknownLogFormat s.logFormat)
    | some _ => .ok s

/-- Refuses variables with a step that cannot be taken, also those of no known setting. -/
def checkSteps (given : List (Name × List Char)) : Except Fault Unit :=
  match given.findSome? fun (name, _) => name.steps.findSome? Step.fault? with
  | some reason => .error (.index reason)
  | none => .ok ()

/-- The settings that some variables give. -/
def ofEnvironment (env : Environment) : Except Fault Settings := do
  let given := collect env
  checkSteps given
  let homeDir? ← get given "home_dir" none fun v => v.asText.map some
  let keyringSubdir ← get given "keyring_subdir" standardSubdir.toList Value.asText
  let lockMaxTimeouts ←
    get given "lock_max_timeouts" LockPolicy.standard.maxTimeouts Value.asSmallCount
  let lockTimeoutMillis ←
    get given "lock_timeout_ms" LockPolicy.standard.timeout.millis Value.asCount
  let logLevel ← get given "log_level" "info".toList Value.asText
  let logFormat ← get given "log_format" "console".toList Value.asText
  validate ⟨homeDir?, keyringSubdir, lockMaxTimeouts, lockTimeoutMillis, logLevel, logFormat⟩

def keyringOptions (s : Settings) : KeyringOptions :=
  ⟨⟨s.keyringSubdir⟩, ⟨s.lockMaxTimeouts, Duration.ofMillis s.lockTimeoutMillis⟩⟩

def jsonLogs (s : Settings) : Bool := LogFormat.ofText? s.logFormat == some .json

def homeResolver (s : Settings) (known : HomeDirectory) : HomeResolver :=
  match s.homeDir? with
  | some home => HomeResolver.fixed ⟨home⟩
  | none => HomeResolver.system known

end Settings

end Keyrings
