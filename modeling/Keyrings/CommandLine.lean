import Keyrings.Calendar
import Keyrings.Settings.Basic

/-! The command line: prints the identifier of a key to use, lists a keyring, or checks a context.
A run loads its settings first, then looks at its arguments, and only then touches a keyring. -/

namespace Keyrings.CommandLine

def usage : String := "usage: homekeys <best|list|check> <context> [username]"

inductive Command
  | best (context : List Char) (user : Option (List Char))
  | list (context : List Char) (user : Option (List Char))
  | check (context : List Char)
  deriving DecidableEq

/-- The command that some arguments give; nothing if they are not used as told. -/
def Command.ofArguments? : List (List Char) → Option Command
  | [name, context] =>
    if name = "best".toList then some (.best context none)
    else if name = "list".toList then some (.list context none)
    else if name = "check".toList then some (.check context)
    else none
  | [name, context, user] =>
    if name = "best".toList then some (.best context (some user))
    else if name = "list".toList then some (.list context (some user))
    else none
  | _ => none

def alignRight (width : Nat) (s : String) : String :=
  String.ofList (List.replicate (width - s.length) ' ') ++ s

/-- The line of a key in a list: its identifier, its age, when it was created and whether it is
recent; never its secret. -/
def listing (key : Key) (now : Instant) : String :=
  let created := (Calendar.render? key.created).getD (toString key.created.toInt)
  let id := alignRight 10 (toString key.id.toInt)
  let age := alignRight 4 (toString (key.age now).toInt)
  id ++ "  age " ++ age ++ "s  " ++ created ++ (if key.isRecent now then "  (recent)" else "")

/-- Why a run ends without doing what it was told. -/
inductive Problem
  | settings (fault : Settings.Fault)
  | usage
  | keyring (fault : Fault)

def Problem.severity : Problem → Settings.Severity
  | .settings fault => fault.severity
  | _ => .told

/-- The status that a run with a problem ends in, unless it is killed. -/
def Problem.status? (p : Problem) : Option UInt32 :=
  match p.severity with
  | .told => some 1
  | .broken => some 101
  | .killed => none

/-- What a run tells of a problem, with the error underneath if there is one. -/
def Problem.message : Problem → String
  | .settings fault => "Failed to load configuration: " ++ fault.message
  | .usage => CommandLine.usage
  | .keyring fault =>
    fault.message ++ match fault.source? with
      | some source => "\n\nCaused by:\n    " ++ source
      | none => ""

def Command.perform (settings : Settings) (known : HomeDirectory) :
    Command → Routine (Except Fault (List String))
  | .check context =>
    match Context.check context with
    | .error fault => pure (.error fault)
    | .ok context => pure (.ok [String.ofList context ++ ": valid"])
  | .best context user => do
    match ← Keyring.openFor (settings.homeResolver known) settings.keyringOptions user context with
    | .error fault => pure (.error fault)
    | .ok ring =>
      match ← ring.bestKey with
      | (.error fault, _) => pure (.error fault)
      | (.ok id, _) => pure (.ok [toString id.toInt])
  | .list context user => do
    match ← Keyring.openFor (settings.homeResolver known) settings.keyringOptions user context with
    | .error fault => pure (.error fault)
    | .ok ring =>
      let now ← Routine.request .now
      pure (.ok (("# " ++ ring.file.toString) :: ring.keys.map (listing · now)))

structure Surroundings where
  /-- The variables that are set when the run starts. -/
  declared : Settings.Environment
  /-- The contents of the file of variables, if there is one. -/
  envFile : Option (List Char)
  /-- The home of the account that the process runs under. -/
  ownHome? : Option Path
  accounts : List Account

def Surroundings.environment (s : Surroundings) : Except Settings.Fault Settings.Environment :=
  match s.envFile with
  | none => .ok s.declared
  | some contents => (Settings.EnvFile.load s.declared contents).mapError .envFile

/-- What the system knows about homes when some variables are set. -/
def Surroundings.homes (s : Surroundings) (env : Settings.Environment) : HomeDirectory :=
  ⟨env.lookup "HOME".toList, s.ownHome?, s.accounts⟩

/-- The settings of a run, and what is known about homes in it. -/
def Surroundings.settings (s : Surroundings) : Except Settings.Fault (Settings × HomeDirectory) :=
  do
    let env ← s.environment
    return (← Settings.ofEnvironment env, s.homes env)

/-- A run from its start to the lines that it prints. -/
def run (s : Surroundings) (arguments : List (List Char)) :
    Routine (Except Problem (List String)) :=
  match s.settings with
  | .error fault => pure (.error (.settings fault))
  | .ok (settings, homes) =>
    match Command.ofArguments? arguments with
    | none => pure (.error .usage)
    | some command => do
      match ← command.perform settings homes with
      | .error fault => pure (.error (.keyring fault))
      | .ok lines => pure (.ok lines)

end Keyrings.CommandLine
