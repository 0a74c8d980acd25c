import Keyrings.FileError
import Keyrings.Path

/-! A tree of files and directories as a finite table from locations to entries. The table is
looked at through `lookup` only; each operation says what it does to that view. Names and whole
paths have a length limit, a path is walked name by name through directories that exist, and an
operation either changes the tree as told or refuses with a reason and changes nothing. -/

namespace Keyrings

/-- The names from the root to a place in the tree. -/
abbrev Location := List (List Char)

abbrev Mode := Nat

inductive Entry
  | directory (mode : Mode)
  | file (mode : Mode) (bytes : List UInt8)
  deriving DecidableEq

namespace Entry

def isDirectory : Entry → Bool
  | .directory _ => true
  | .file .. => false

def mode : Entry → Mode
  | .directory m => m
  | .file m _ => m

end Entry

/-- A tree of files below a root directory. -/
structure FileTree where
  entries : List (Location × Entry)
  deriving DecidableEq

namespace FileTree

/-- The mode of directories that come about without a wish for another one. -/
def directoryMode : Mode := 0o755

/-- The mode of files that come about without a wish for another one. -/
def fileMode : Mode := 0o644

def empty : FileTree := ⟨[]⟩

/-! ### The view and its updates -/

def find (l : Location) : List (Location × Entry) → Option Entry
  | [] => none
  | (k, e) :: rest => if k = l then some e else find l rest

/-- What stands at a location; at the root there always is a directory. -/
def lookup (t : FileTree) (l : Location) : Option Entry :=
  if l = [] then some (.directory directoryMode) else find l t.entries

def erase (t : FileTree) (l : Location) : FileTree := ⟨t.entries.filter fun x => x.1 ≠ l⟩

def insert (t : FileTree) (l : Location) (e : Entry) : FileTree := ⟨(l, e) :: (t.erase l).entries⟩

/-- The tree without a location and all below it. -/
def prune (t : FileTree) (l : Location) : FileTree :=
  ⟨t.entries.filter fun (k, _) => !l.isPrefixOf k⟩

/-- The tree with a location and all below it moved to another place, over what stood there. -/
def transplant (t : FileTree) (source target : Location) : FileTree :=
  ⟨(t.prune target).entries.map fun (k, e) =>
    if source.isPrefixOf k then (target ++ k.drop source.length, e) else (k, e)⟩

theorem find_filter_of_ne {l m : Location} (h : m ≠ l) (xs : List (Location × Entry)) :
    find m (xs.filter fun x => x.1 ≠ l) = find m xs := by
  induction xs with
  | nil => rfl
  | cons x xs ih =>
    obtain ⟨k, e⟩ := x
    by_cases hk : k = l
    · have hkm : k ≠ m := fun he => h (he.symm.trans hk)
      rw [List.filter_cons_of_neg (by simp [hk]), find, if_neg hkm, ih]
    · rw [List.filter_cons_of_pos (by simp [hk]), find, find, ih]

theorem find_filter_self (l : Location) (xs : List (Location × Entry)) :
    find l (xs.filter fun x => x.1 ≠ l) = none := by
  induction xs with
  | nil => rfl
  | cons x xs ih =>
    obtain ⟨k, e⟩ := x
    by_cases hk : k = l
    · rw [List.filter_cons_of_neg (by simp [hk]), ih]
    · rw [List.filter_cons_of_pos (by simp [hk]), find, if_neg hk, ih]

theorem lookup_erase_self (t : FileTree) {l : Location} (h : l ≠ []) :
    (t.erase l).lookup l = none := by
  simp only [lookup, h, if_false, erase]
  exact find_filter_self l t.entries

theorem lookup_erase_of_ne (t : FileTree) {l m : Location} (h : m ≠ l) :
    (t.erase l).lookup m = t.lookup m := by
  simp only [lookup, erase]
  rw [find_filter_of_ne h]

theorem lookup_insert_self (t : FileTree) {l : Location} (h : l ≠ []) (e : Entry) :
    (t.insert l e).lookup l = some e := by
  simp [lookup, h, insert, find]

theorem lookup_insert_of_ne (t : FileTree) {l m : Location} (h : m ≠ l) (e : Entry) :
    (t.insert l e).lookup m = t.lookup m := by
  have hl : l ≠ m := fun he => h he.symm
  simp only [lookup, insert, find, hl, if_false, erase]
  rw [find_filter_of_ne h]

/-! ### Walking along paths -/

/-- The longest name of an entry, in bytes. -/
def nameLimit : Nat := 255

/-- The length that no path reaches, in bytes. -/
def pathLimit : Nat := 4096

def byteLength : List Char → Nat
  | [] => 0
  | c :: cs => c.utf8Size + byteLength cs

/-- The directory that is reached from another one by walking along names. -/
def walk (t : FileTree) : Location → List (List Char) → Except FileError Location
  | here, [] => .ok here
  | here, name :: rest =>
    if name = ['.'] then walk t here rest
    else if name = ['.', '.'] then walk t here.dropLast rest
    else if nameLimit < byteLength name then .error .nameTooLong
    else match t.lookup (here ++ [name]) with
      | some (.directory _) => walk t (here ++ [name]) rest
      | some (.file ..) => .error .notDirectory
      | none => .error .notFound

/-- What a path leads to: a directory that it names by a dot or as the root, or a name in a
directory, which need not have an entry. -/
inductive Spot
  | directory (l : Location)
  | name (l : Location)

def isTooLong (l : Location) : Bool := nameLimit < byteLength (l.getLastD [])

/-- Where a path leads, seen from a working directory. All but its last name must be directories,
and its last name is not looked at. -/
def approach (t : FileTree) (cwd : Location) (p : Path) : Except FileError Spot :=
  if p.text.contains '\x00' then .error .nulInName
  else if p.text.isEmpty then .error .notFound
  else if pathLimit ≤ byteLength p.text then .error .nameTooLong
  else
    let start := if p.isAbsolute then [] else cwd
    match p.names.getLast? with
    | none => .ok (.directory start)
    | some last =>
      if last = ['.'] ∨ last = ['.', '.'] then (walk t start p.names).map .directory
      else (walk t start p.names.dropLast).map fun here => .name (here ++ [last])

/-- Where a path leads if all its names can be those of entries. -/
def locate (t : FileTree) (cwd : Location) (p : Path) : Except FileError Spot :=
  match t.approach cwd p with
  | .error e => .error e
  | .ok (.directory l) => .ok (.directory l)
  | .ok (.name l) => if isTooLong l then .error .nameTooLong else .ok (.name l)

def entryAt (t : FileTree) (cwd : Location) (p : Path) : Except FileError Entry :=
  match t.locate cwd p with
  | .error e => .error e
  | .ok (.directory l) => (t.lookup l).elim (.error .notFound) .ok
  | .ok (.name l) =>
    match t.lookup l with
    | none => .error .notFound
    | some (.file m bytes) =>
      if p.endsInSeparator then .error .notDirectory else .ok (.file m bytes)
    | some (.directory m) => .ok (.directory m)

/-! ### The operations of keyrings -/

/-- Puts an empty file where nothing stands yet. A path that can only name a directory is refused
before its last name is looked at. -/
def create (t : FileTree) (cwd : Location) (p : Path) (mode : Mode) : Except FileError FileTree :=
  match t.approach cwd p with
  | .error e => .error e
  | .ok (.directory _) => .error .exists
  | .ok (.name l) =>
    if p.endsInSeparator then .error .isDirectory
    else if isTooLong l then .error .nameTooLong
    else match t.lookup l with
      | some _ => .error .exists
      | none => .ok (t.insert l (.file mode []))

def read (t : FileTree) (cwd : Location) (p : Path) : Except FileError (List UInt8) :=
  match t.entryAt cwd p with
  | .error e => .error e
  | .ok (.directory _) => .error .isDirectory
  | .ok (.file _ bytes) => .ok bytes

def store (t : FileTree) (cwd : Location) (p : Path) (bytes : List UInt8) : FileTree :=
  match t.locate cwd p with
  | .ok (.name l) =>
    match t.lookup l with
    | some (.file m _) => t.insert l (.file m bytes)
    | _ => t
  | _ => t

def remove (t : FileTree) (cwd : Location) (p : Path) : Except FileError FileTree :=
  match t.locate cwd p with
  | .error e => .error e
  | .ok (.directory _) => .error .isDirectory
  | .ok (.name l) =>
    match t.lookup l with
    | none => .error .notFound
    | some (.directory _) => .error .isDirectory
    | some (.file ..) => if p.endsInSeparator then .error .notDirectory else .ok (t.erase l)

def makeDirectory (t : FileTree) (cwd : Location) (p : Path) (mode : Mode) :
    Except FileError FileTree :=
  match t.locate cwd p with
  | .error e => .error e
  | .ok (.directory _) => .error .exists
  | .ok (.name l) =>
    match t.lookup l with
    | some _ => .error .exists
    | none => .ok (t.insert l (.directory mode))

def hasBelow (t : FileTree) (l : Location) : Bool :=
  t.entries.any fun (k, _) => l.isPrefixOf k && k ≠ l

/-- Moves an entry over what stands at its new place: a file over a file, a directory over an empty
directory. -/
def rename (t : FileTree) (cwd : Location) (p q : Path) : Except FileError FileTree :=
  match t.locate cwd p, t.locate cwd q with
  | .error e, _ => .error e
  | _, .error e => .error e
  | .ok (.name source), .ok (.name target) =>
    match t.lookup source, t.lookup target with
    | none, _ => .error .notFound
    | some (.file m bytes), there =>
      if p.endsInSeparator ∨ q.endsInSeparator then .error .notDirectory
      else match there with
        | some (.directory _) => .error .isDirectory
        | _ => .ok ((t.erase source).insert target (.file m bytes))
    | some (.directory _), there =>
      if source = target then .ok t
      else if source.isPrefixOf target then .error .invalidArgument
      else match there with
        | some (.file ..) => .error .notDirectory
        | _ => if t.hasBelow target then .error .notEmpty else .ok (t.transplant source target)
  | _, _ => .error .invalidArgument

end FileTree

end Keyrings
