import Keyrings.Proofs.Lock

/-! Taking a lock step by step. What is left of an acquisition after any number of its requests is
one of four routines, and each request leads from one of them to another or to the end. Whether the
marker stands changes with the requests that create or remove it and with no other. -/

namespace Keyrings

namespace Routine

variable {α : Type}

def removes (path : Path) : Routine α → Bool
  | .ask (.remove p) _ => p = path
  | _ => false

/-- Whether the next request is to create a file at a path, and a machine does it. -/
def creates (path : Path) (m : Machine) : Routine α → Bool
  | .ask (.create p mode) _ => p = path && (m.files.create m.cwd p mode).isOk
  | _ => false

end Routine

namespace FileTree

def hasFile (t : FileTree) (cwd : Location) (p : Path) : Bool :=
  match t.entryAt cwd p with
  | .ok (.file ..) => true
  | _ => false

variable {t u : FileTree} {cwd : Location} {p : Path}

theorem hasFile_of_lookup (h : p.endsInSeparator = false) {l : Location}
    (hl : t.locate cwd p = .ok (.name l)) {mode : Mode} {bytes : List UInt8}
    (hlook : t.lookup l = some (.file mode bytes)) : t.hasFile cwd p = true := by
  rw [hasFile, entryAt_of_file h hl hlook]

theorem hasFile_of_none {l : Location} (hl : t.locate cwd p = .ok (.name l))
    (hlook : t.lookup l = none) : t.hasFile cwd p = false := by
  rw [hasFile, entryAt_of_none hl hlook]

/-- A path that can only name a directory is no place for a file. -/
theorem endsInSeparator_of_create {mode : Mode} (h : t.create cwd p mode = .ok u) :
    p.endsInSeparator = false := by
  cases hsep : p.endsInSeparator with
  | false => rfl
  | true =>
    simp only [create, hsep, if_true] at h
    split at h <;> contradiction

theorem endsInSeparator_of_remove (h : t.remove cwd p = .ok u) : p.endsInSeparator = false := by
  cases hsep : p.endsInSeparator with
  | false => rfl
  | true =>
    simp only [remove, hsep, if_true] at h
    split at h
    · contradiction
    · contradiction
    · split at h <;> contradiction

/-- Creating makes the file that was not there. -/
theorem hasFile_of_create {mode : Mode} (h : t.create cwd p mode = .ok u) :
    t.hasFile cwd p = false ∧ u.hasFile cwd p = true := by
  have hsep := endsInSeparator_of_create h
  obtain ⟨l, hl, hnone, rfl⟩ := (create_eq_ok hsep).mp h
  have hsame := sameDirectories_insert (not_hasDirectory_of_none hnone) mode []
  exact ⟨hasFile_of_none hl hnone, hasFile_of_lookup hsep (hsame.locate_eq_ok hl)
    (lookup_insert_self t (locate_ne_nil hl) _)⟩

/-- Removing takes away the file that was there. -/
theorem hasFile_of_remove (h : t.remove cwd p = .ok u) :
    t.hasFile cwd p = true ∧ u.hasFile cwd p = false := by
  have hsep := endsInSeparator_of_remove h
  obtain ⟨l, mode, bytes, hl, hlook, rfl⟩ := (remove_eq_ok hsep).mp h
  have hsame := sameDirectories_erase (not_hasDirectory_of_file hlook)
  exact ⟨hasFile_of_lookup hsep hl hlook, hasFile_of_none (hsame.locate_eq_ok hl)
    (lookup_erase_self t (locate_ne_nil hl))⟩

end FileTree

namespace Lock

/-- Where an acquisition is: before an attempt or a sleep, with a number of attempts left after it,
or before one of the two requests that replace a marker. -/
inductive Wait
  | attempt (left : Nat)
  | sleep (left : Nat)
  | remove
  | create
  deriving DecidableEq

namespace Wait

def start : Nat → Wait
  | 0 => remove
  | n + 1 => attempt n

variable (marker : Path) (timeout : Duration)

def rest : Wait → Routine (Except Fault Lock)
  | attempt n => Lock.attempt marker timeout (n + 1)
  | sleep n => .ask (.sleep timeout) fun _ => Lock.attempt marker timeout n
  | remove => seize marker
  | create => .ask (.create marker privateFileMode) fun
    | .ok _ => .done (.ok ⟨marker⟩)
    | .error e => .done (.error (.failed (.markerStuck marker e)))

theorem rest_start (n : Nat) : (start n).rest marker timeout = Lock.attempt marker timeout n := by
  cases n <;> rfl

theorem rest_attempt (n : Nat) : (attempt n).rest marker timeout =
    .ask (.create marker privateFileMode) fun
      | .ok _ => .done (.ok ⟨marker⟩)
      | .error _ => (sleep n).rest marker timeout := rfl

theorem rest_sleep (n : Nat) : (sleep n).rest marker timeout =
    .ask (.sleep timeout) fun _ => (start n).rest marker timeout := by
  rw [rest_start]
  rfl

theorem rest_remove : remove.rest marker timeout =
    .ask (.remove marker) fun _ => create.rest marker timeout := rfl

theorem rest_create : create.rest marker timeout = .ask (.create marker privateFileMode) fun
    | .ok _ => .done (.ok ⟨marker⟩)
    | .error e => .done (.error (.failed (.markerStuck marker e))) := rfl

inductive Step (m : Machine) : Wait → Routine (Except Fault Lock) × Machine → Prop
  | taken {n : Nat} {u : FileTree} (h : m.files.create m.cwd marker privateFileMode = .ok u) :
      Step m (attempt n) (.done (.ok ⟨marker⟩), { m with files := u })
  | refused {n : Nat} {e : FileError}
      (h : m.files.create m.cwd marker privateFileMode = .error e) :
      Step m (attempt n) ((sleep n).rest marker timeout, m)
  | slept {n : Nat} :
      Step m (sleep n) ((start n).rest marker timeout, (m.answer (.sleep timeout)).2)
  | removed {u : FileTree} (h : m.files.remove m.cwd marker = .ok u) :
      Step m remove (create.rest marker timeout, { m with files := u })
  | unremoved {e : FileError} (h : m.files.remove m.cwd marker = .error e) :
      Step m remove (create.rest marker timeout, m)
  | replaced {u : FileTree} (h : m.files.create m.cwd marker privateFileMode = .ok u) :
      Step m create (.done (.ok ⟨marker⟩), { m with files := u })
  | stuck {e : FileError} (h : m.files.create m.cwd marker privateFileMode = .error e) :
      Step m create (.done (.error (.failed (.markerStuck marker e))), m)

theorem rest_step (w : Wait) (m : Machine) :
    Step marker timeout m w ((w.rest marker timeout).step m) := by
  cases w with
  | attempt n =>
    rw [rest_attempt]
    cases h : m.files.create m.cwd marker privateFileMode with
    | ok u =>
      simp only [Routine.step, Machine.answer, h, Machine.change_ok]
      exact .taken h
    | error e =>
      simp only [Routine.step, Machine.answer, h, Machine.change_error]
      exact .refused h
  | sleep n =>
    rw [rest_sleep]
    exact .slept
  | remove =>
    rw [rest_remove]
    cases h : m.files.remove m.cwd marker with
    | ok u =>
      simp only [Routine.step, Machine.answer, h, Machine.change_ok]
      exact .removed h
    | error e =>
      simp only [Routine.step, Machine.answer, h, Machine.change_error]
      exact .unremoved h
  | create =>
    rw [rest_create]
    cases h : m.files.create m.cwd marker privateFileMode with
    | ok u =>
      simp only [Routine.step, Machine.answer, h, Machine.change_ok]
      exact .replaced h
    | error e =>
      simp only [Routine.step, Machine.answer, h, Machine.change_error]
      exact .stuck h

end Wait

end Lock

end Keyrings
