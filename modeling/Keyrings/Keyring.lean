import Keyrings.Context
import Keyrings.FreshKey
import Keyrings.KeyFile
import Keyrings.Lock

/-! Keyrings in a home directory. A keyring keeps the keys that it loaded last. Reloading reads
the file anew; a reload that adds a key also replaces the file, under the lock and through a
temporary file that is moved over it, so that a reader finds the old contents or the new. -/

namespace Keyrings

/-- The directory of keyrings below a home, unless another one is asked for. -/
def standardSubdir : String := ".dbus-keyrings"

/-- The mode of keyring directories: for their owner alone. -/
def privateDirectoryMode : Mode := 0o700

/-- Where keyrings are below a home, and how their locks are taken. -/
structure KeyringOptions where
  subdir : Path := Path.ofString standardSubdir
  policy : LockPolicy := LockPolicy.standard
  deriving DecidableEq

/-- Finds the home of a user, or one's own. -/
abbrev HomeResolver := Option (List Char) → Except Fault Path

/-- A keyring that is open: its paths, its policy and the keys loaded last. -/
structure Keyring where
  directory : Path
  file : Path
  marker : Path
  policy : LockPolicy
  keys : List Key
  deriving DecidableEq

namespace Keyring

def markerEnding : List Char := ".lock".toList

/-- The temporary file through which a file is replaced. -/
def temporaryFor (file : Path) (u : Uuid) : Path := file.withExtension ("tmp.".toList ++ u.text)

/-- The keyring of a context in a directory, with no key loaded. -/
def inDirectory (directory : Path) (context : List Char) (policy : LockPolicy) : Keyring :=
  let file := directory.join ⟨context⟩
  ⟨directory, file, file.extend markerEnding, policy, []⟩

/-- Puts bytes in the place of a file's contents through a temporary file, of which nothing is
left if a step fails. -/
def replace (file : Path) (bytes : List UInt8) : Routine (Except FileError Unit) := do
  let temporary := temporaryFor file (← Routine.request .uuid)
  let outcome ← do
    match ← Routine.request (.create temporary privateFileMode) with
    | .error e => pure (.error e)
    | .ok _ =>
      match ← Routine.request (.store temporary bytes) with
      | .error e => pure (.error e)
      | .ok _ => Routine.request (.rename temporary file)
  match outcome with
  | .ok _ => pure (.ok ())
  | .error e =>
    let _ ← Routine.request (.remove temporary)
    pure (.error e)

/-- The keys in the file at the time `now`; a file that cannot be read counts as empty. -/
def load (file : Path) (now : Instant) : Routine (List Key) := do
  match ← Routine.request (.read file) with
  | .ok contents => pure (KeyFile.parse contents now)
  | .error _ => pure []

/-- Loads the keys, adds a new one and replaces the file. The lock must be held. -/
def extendFile (file : Path) (now : Instant) : Routine (Except Fault (List Key)) := do
  let old ← load file now
  match ← freshKey old now with
  | .error fault => pure (.error fault)
  | .ok key =>
    let keys := old ++ [key]
    match ← replace file (KeyFile.serialize keys) with
    | .error e => pure (.error (.file e))
    | .ok _ => pure (.ok keys)

def lockFault : Fault → Fault
  | .failed reason => .failed (.notLocked reason)
  | other => other

/-- Reads the file anew, which always succeeds. -/
def refresh (ring : Keyring) : Routine Keyring := do
  let now ← Routine.request .now
  let keys ← load ring.file now
  pure { ring with keys := keys }

/-- Reads the file anew and adds a key to it. The time is taken before the lock, and the lock is
given back whatever happens; after a fault the loaded keys are the same as before. -/
def renew (ring : Keyring) : Routine (Except Fault Unit × Keyring) := do
  let now ← Routine.request .now
  match ← Lock.acquire ring.marker ring.policy with
  | .error fault => pure (.error (lockFault fault), ring)
  | .ok lock =>
    let outcome ← extendFile ring.file now
    lock.release
    match outcome with
    | .error fault => pure (.error fault, ring)
    | .ok keys => pure (.ok (), { ring with keys := keys })

/-- Reads the file anew, and adds a key to it if told to. -/
def reload (ring : Keyring) (addNew : Bool) : Routine (Except Fault Unit × Keyring) :=
  if addNew then ring.renew
  else do
    let ring ← ring.refresh
    pure (.ok (), ring)

/-- The identifier of a recent key. If none is loaded, a new key is added to the file. -/
def bestKey (ring : Keyring) : Routine (Except Fault Int32 × Keyring) := do
  let now ← Routine.request .now
  match findRecent ring.keys now with
  | some key => pure (.ok key.id, ring)
  | none =>
    match ← ring.renew with
    | (.error fault, ring) => pure (.error fault, ring)
    | (.ok _, ring) =>
      let now ← Routine.request .now
      match findRecent ring.keys now with
      | some key => pure (.ok key.id, ring)
      | none => pure (.error (.failed .noRecentKey), ring)

/-- Opens the keyring of a context: loads what its file holds and makes its directory if that is
missing and can be made. -/
def openIn (home : Path) (options : KeyringOptions) (context : List Char) : Routine Keyring := do
  let ring ← (inDirectory (home.join options.subdir) context options.policy).refresh
  let _ ← Routine.request (.makeDirectory ring.directory privateDirectoryMode)
  pure ring

/-- Opens the keyring of a context in the home of a user, or in one's own. -/
def openFor (resolver : HomeResolver) (options : KeyringOptions) (user : Option (List Char))
    (context : List Char) : Routine (Except Fault Keyring) :=
  match resolver user with
  | .error fault => pure (.error fault)
  | .ok home =>
    if Context.isValid context then do
      let ring ← openIn home options context
      pure (.ok ring)
    else pure (.error (.failed .invalidContext))

def key? (ring : Keyring) (id : Int32) : Option Key := findId ring.keys id

def hexKey? (ring : Keyring) (id : Int32) : Option (List Char) := (ring.key? id).map Key.hexSecret

def describe (ring : Keyring) : String :=
  "Keyring \x7b file: " ++ String.ofList (Text.Quoted.encode ring.file.text) ++ ", keys: " ++
    toString ring.keys.length ++ " \x7d"

end Keyring

end Keyrings
