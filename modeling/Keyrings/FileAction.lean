import Keyrings.FileTree

/-! What others do to files: overwriting, appending, making directories, removing whole trees and
moving entries. Unlike the requests of a keyring these actions create what they need. -/

namespace Keyrings

inductive FileAction
  | write (path : Path) (bytes : List UInt8)
  | append (path : Path) (bytes : List UInt8)
  | makeDirectories (path : Path)
  | remove (path : Path)
  | rename (source target : Path)
  deriving DecidableEq

namespace FileTree

/-- Changes the contents of a file; a file that is missing is made, as if it had been empty. -/
def revise (t : FileTree) (cwd : Location) (p : Path) (change : List UInt8 → List UInt8) :
    Option FileTree :=
  if p.endsInSeparator then none
  else match t.locate cwd p with
    | .ok (.name l) =>
      match t.lookup l with
      | none => some (t.insert l (.file fileMode (change [])))
      | some (.file m bytes) => some (t.insert l (.file m (change bytes)))
      | some (.directory _) => none
    | _ => none

/-- Walks along names from a directory and makes those that are missing: whether the end was
reached, and the tree with what was made. -/
def makeAlong (t : FileTree) : Location → List (List Char) → Bool × FileTree
  | _, [] => (true, t)
  | here, name :: rest =>
    if name = ['.'] then t.makeAlong here rest
    else if name = ['.', '.'] then t.makeAlong here.dropLast rest
    else if nameLimit < byteLength name then (false, t)
    else
      let there := here ++ [name]
      match t.lookup there with
      | some (.directory _) => t.makeAlong there rest
      | some (.file ..) => (false, t)
      | none => (t.insert there (.directory directoryMode)).makeAlong there rest

/-- Makes a directory with those above it: whether it is there then, and the tree with what was
made. A dot at the end of the path makes nothing, so that what stands before it has to be there. -/
def makeAll (t : FileTree) (cwd : Location) (p : Path) : Bool × FileTree :=
  if p.text.contains '\x00' || pathLimit ≤ byteLength p.text then (false, t)
  else
    let start := if p.isAbsolute then [] else cwd
    if p.names.getLast? = some ['.'] then
      let named := (p.names.reverse.dropWhile (· = ['.'])).reverse
      match t.makeAlong start named.dropLast with
      | (false, t) => (false, t)
      | (true, t) => ((t.walk start p.names).isOk, t)
    else t.makeAlong start p.names

/-- Removes an entry with all below it: whether it is gone, and the tree after it. A directory that
is named by a dot is emptied and stays. -/
def removeAll (t : FileTree) (cwd : Location) (p : Path) : Bool × FileTree :=
  match t.locate cwd p with
  | .error _ => (false, t)
  | .ok (.directory l) =>
    let t : FileTree := ⟨t.entries.filter fun (k, _) => !(l.isPrefixOf k && k ≠ l)⟩
    (!(t.locate cwd p).isOk, t)
  | .ok (.name l) =>
    match t.lookup l with
    | none => (false, t)
    | some (.file ..) => if p.endsInSeparator then (false, t) else (true, t.erase l)
    | some (.directory _) => (true, t.prune l)

end FileTree

/-- Whether an action can be done, and the tree after it. -/
def FileAction.apply (cwd : Location) (t : FileTree) : FileAction → Bool × FileTree
  | .write path bytes => report t (t.revise cwd path fun _ => bytes)
  | .append path bytes => report t (t.revise cwd path (· ++ bytes))
  | .makeDirectories path => t.makeAll cwd path
  | .remove path => t.removeAll cwd path
  | .rename source target => report t (t.rename cwd source target).toOption
where
  /-- The outcome of an action that is done as a whole or not at all. -/
  report (t : FileTree) : Option FileTree → Bool × FileTree
    | some after => (true, after)
    | none => (false, t)

/-- The tree after some actions in sequence, done or not. -/
def FileAction.applyAll (cwd : Location) (actions : List FileAction) (t : FileTree) : FileTree :=
  actions.foldl (fun t action => (action.apply cwd t).2) t

end Keyrings
