import Keyrings.Fault
import Keyrings.FileTree
import Keyrings.Time
import Keyrings.Uuid

/-! Routines: what a keyring does with the machine it runs on. A routine is a finite sequence of
requests in which each may depend on the answers before it, and it ends in a value. A request is
one indivisible step, so that a routine can be run to its end, stopped after any number of steps,
or taken in turns with others. -/

namespace Keyrings

structure Block (n : Nat) where
  bytes : List UInt8
  length_bytes : bytes.length = n
  deriving DecidableEq

inductive Request
  /-- Look at the clock. -/
  | now
  /-- Let time pass. -/
  | sleep (time : Duration)
  /-- Draw random bytes. -/
  | draw (count : Nat)
  /-- Make up an identifier. -/
  | uuid
  /-- Read all bytes of a file. -/
  | read (path : Path)
  /-- Create a file; refused if anything stands there. -/
  | create (path : Path) (mode : Mode)
  /-- Fill the file that was created at a path and see it written. -/
  | store (path : Path) (bytes : List UInt8)
  /-- Move a file over what stands at another path. -/
  | rename (source target : Path)
  /-- Remove a file. -/
  | remove (path : Path)
  /-- Make a directory; refused if anything stands there. -/
  | makeDirectory (path : Path) (mode : Mode)
  deriving DecidableEq

@[reducible] def Request.Answer : Request → Type
  | .now => Instant
  | .sleep _ => Unit
  | .draw count => Except Fault (Block count)
  | .uuid => Uuid
  | .read _ => Except FileError (List UInt8)
  | .create .. | .store .. | .rename .. | .remove _ | .makeDirectory .. => Except FileError Unit

/-- A sequence of requests that ends in a value. -/
inductive Routine (α : Type) : Type
  | done (value : α)
  | ask (request : Request) (next : request.Answer → Routine α)

namespace Routine

variable {α β γ : Type}

def bind : Routine α → (α → Routine β) → Routine β
  | done a, f => f a
  | ask r next, f => ask r fun answer => (next answer).bind f

instance : Monad Routine where
  pure := done
  bind := bind

def request (r : Request) : Routine r.Answer := ask r done

@[simp] theorem pure_eq (a : α) : (pure a : Routine α) = done a := rfl

@[simp] theorem bind_eq (t : Routine α) (f : α → Routine β) : t >>= f = t.bind f := rfl

@[simp] theorem done_bind (a : α) (f : α → Routine β) : (done a).bind f = f a := rfl

@[simp] theorem ask_bind (r : Request) (next : r.Answer → Routine α) (f : α → Routine β) :
    (ask r next).bind f = ask r fun answer => (next answer).bind f := rfl

theorem bind_done (t : Routine α) : t.bind done = t := by
  induction t with
  | done a => rfl
  | ask r next ih => simp only [ask_bind, ih]

theorem bind_assoc (t : Routine α) (f : α → Routine β) (g : β → Routine γ) :
    (t.bind f).bind g = t.bind fun a => (f a).bind g := by
  induction t with
  | done a => rfl
  | ask r next ih => simp only [ask_bind, ih]

end Routine

end Keyrings
