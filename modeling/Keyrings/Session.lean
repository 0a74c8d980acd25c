import Keyrings.FileAction
import Keyrings.Home
import Keyrings.Machine

/-! Sessions: any number of handles on keyrings, all on one machine. A handle is a name for an
open keyring; several handles may share one keyring, with the keys that it has loaded, and a
keyring is closed when its last handle goes. Locks are held under names too. -/

namespace Keyrings

/-- The keyrings that are open on a machine, and the locks that are held. -/
structure Session where
  machine : Machine
  /-- The open keyrings, by number. -/
  rings : List (Nat × Keyring) := []
  /-- The number of the keyring of each handle. -/
  handles : List (String × Nat) := []
  /-- How many keyrings have been opened. -/
  opened : Nat := 0
  /-- The locks held by name. -/
  locks : List (String × Lock) := []

inductive Operation
  | openFor (handle : String) (resolver : HomeResolver) (options : KeyringOptions)
      (user : Option (List Char)) (context : List Char)
  | bestKey (handle : String)
  | reload (handle : String) (addNew : Bool)
  | clone (handle copy : String)
  | drop (handle : String)

inductive Outcome
  /-- It is done. -/
  | done
  /-- The identifier of a key. -/
  | key (id : Int32)
  /-- How many handles the keyring has. -/
  | count (n : Nat)
  /-- Whether there was something to drop. -/
  | dropped (existed : Bool)
  | fault (reason : Fault)
  /-- No keyring has the handle. -/
  | noHandle

namespace Session

def put {α β : Type} [BEq α] (table : List (α × β)) (name : α) (value : β) : List (α × β) :=
  (name, value) :: table.filter (!·.1 == name)

def number? (s : Session) (handle : String) : Option Nat := s.handles.lookup handle

def ring? (s : Session) (handle : String) : Option Keyring :=
  (s.number? handle).bind fun n => s.rings.lookup n

def references (s : Session) (n : Nat) : Nat := (s.handles.filter (·.2 == n)).length

/-- The session with the keyrings closed that have no handle. -/
def close (s : Session) : Session :=
  { s with rings := s.rings.filter fun (n, _) => s.handles.any (·.2 == n) }

def perform {α : Type} (s : Session) (routine : Routine α) : α × Session :=
  let (a, machine) := routine.run s.machine
  (a, { s with machine := machine })

/-- Opens a keyring under a handle. A keyring that had the handle loses it, unless opening fails. -/
def openFor (s : Session) (handle : String) (resolver : HomeResolver) (options : KeyringOptions)
    (user : Option (List Char)) (context : List Char) : Except Fault Unit × Session :=
  match s.perform (Keyring.openFor resolver options user context) with
  | (.error fault, s) => (.error fault, s)
  | (.ok ring, s) =>
    (.ok (), close { s with
      rings := put s.rings s.opened ring
      handles := put s.handles handle s.opened
      opened := s.opened + 1 })

/-- Runs a routine on the keyring that has a handle, and keeps what becomes of the keyring. -/
def update {α : Type} (s : Session) (handle : String) (routine : Keyring → Routine (α × Keyring)) :
    Option (α × Session) := do
  let n ← s.number? handle
  let ring ← s.rings.lookup n
  let ((a, ring), s) := s.perform (routine ring)
  return (a, { s with rings := put s.rings n ring })

/-- Gives a keyring one more handle, and counts its handles then. -/
def clone (s : Session) (handle copy : String) : Option (Nat × Session) := do
  let n ← s.number? handle
  let s := close { s with handles := put s.handles copy n }
  return (s.references n, s)

/-- Drops a handle: whether it was there, and the session without it. -/
def drop (s : Session) (handle : String) : Bool × Session :=
  ((s.number? handle).isSome, close { s with handles := s.handles.filter (!·.1 == handle) })

def step (s : Session) : Operation → Outcome × Session
  | .openFor handle resolver options user context =>
    match s.openFor handle resolver options user context with
    | (.ok _, s) => (.done, s)
    | (.error fault, s) => (.fault fault, s)
  | .bestKey handle =>
    match s.update handle Keyring.bestKey with
    | none => (.noHandle, s)
    | some (.ok id, s) => (.key id, s)
    | some (.error fault, s) => (.fault fault, s)
  | .reload handle addNew =>
    match s.update handle (·.reload addNew) with
    | none => (.noHandle, s)
    | some (.ok _, s) => (.done, s)
    | some (.error fault, s) => (.fault fault, s)
  | .clone handle copy =>
    match s.clone handle copy with
    | none => (.noHandle, s)
    | some (n, s) => (.count n, s)
  | .drop handle =>
    let (existed, s) := s.drop handle
    (.dropped existed, s)

/-! ### Locks by name -/

/-- Takes a lock and holds it under a name; a lock that was held under the name before is given back
after that. -/
def takeLock (s : Session) (name : String) (marker : Path) (policy : LockPolicy) :
    Except Fault Lock × Session :=
  match s.perform (Lock.acquire marker policy) with
  | (.error fault, s) => (.error fault, s)
  | (.ok lock, s) =>
    let older := s.locks.lookup name
    let s := { s with locks := put s.locks name lock }
    match older with
    | none => (.ok lock, s)
    | some older => (.ok lock, (s.perform older.release).2)

/-- Gives the lock under a name back: whether there was one. -/
def giveLock (s : Session) (name : String) : Bool × Session :=
  match s.locks.lookup name with
  | none => (false, s)
  | some lock =>
    let s := { s with locks := s.locks.filter (!·.1 == name) }
    (true, (s.perform lock.release).2)

/-! ### Everybody else -/

def onMachine (s : Session) (change : Machine → Machine) : Session :=
  { s with machine := change s.machine }

def act (s : Session) (action : FileAction) : Bool × Session :=
  let (succeeded, files) := action.apply s.machine.cwd s.machine.files
  (succeeded, s.onMachine fun m => { m with files := files })

/-- Has file actions done at the end of the `n`-th sleep from now, after those already planned. -/
def planAtSleep (s : Session) (n : Nat) (actions : List FileAction) : Session :=
  s.onMachine fun m =>
    { m with others := fun i files =>
        let files := m.others i files
        if i + 1 = m.sleepCount + n then FileAction.applyAll m.cwd actions files else files }

/-- Adds draws to those that come before the last one for all time. -/
def addDraws (s : Session) (draws : List Draw) : Session :=
  s.onMachine fun m => { m with random := { m.random with script := m.random.script ++ draws } }

end Session

end Keyrings
