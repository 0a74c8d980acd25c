import Keyrings.Session

/-! Routines while everybody else is busy. Before each request others may do anything to the
machine: to its files, to its clock, to its source of random bytes. What is certain of a routine
then is what holds whatever is answered to it. The operations of a session are such routines, each
of which ends in what becomes of the session. -/

namespace Keyrings

/-- What others do to a machine before the first request, before the second, and so on. -/
abbrev Others := Nat → Machine → Machine

/-- The time that an answer tells, if it tells one. -/
def Request.readings : (r : Request) → r.Answer → List Instant
  | .now, time => [time]
  | _, _ => []

namespace Routine

variable {α β : Type}

/-- Runs a routine to its end while others change the machine before each of its requests. The
value comes with the readings of the clock, in their order. -/
def amid : Routine α → Others → Machine → (α × List Instant) × Machine
  | done a, _, m => ((a, []), m)
  | ask r next, others, m =>
    let (answer, m) := (others 0 m).answer r
    let ((a, times), m) := (next answer).amid (fun n => others (n + 1)) m
    ((a, r.readings answer ++ times), m)

/-- Where others do nothing, it is the usual run. -/
theorem amid_idle (t : Routine α) (m : Machine) :
    ((t.amid (fun _ => id) m).1.1, (t.amid (fun _ => id) m).2) = t.run m := by
  induction t generalizing m with
  | done a => rfl
  | ask r next ih => exact ih (m.answer r).1 (m.answer r).2

/-! ### Whatever is answered -/

/-- Whatever is answered, a routine ends in a value that has a property with the readings of the
clock. -/
def Ensures : Routine α → (List Instant → α → Prop) → Prop
  | done a, P => P [] a
  | ask r next, P => ∀ answer,
    (next answer).Ensures fun times a => P (r.readings answer ++ times) a

/-- Whatever was answered before, each request of a routine has a property. -/
def Asks (P : Request → Prop) : Routine α → Prop
  | done _ => True
  | ask r next => P r ∧ ∀ answer, (next answer).Asks P

variable {t : Routine α} {f : α → Routine β} {P Q : List Instant → α → Prop}
  {R : List Instant → β → Prop}

theorem Ensures.mono (h : t.Ensures P) (hPQ : ∀ times a, P times a → Q times a) : t.Ensures Q := by
  induction t generalizing P Q with
  | done a => exact hPQ [] a h
  | ask r next ih =>
    exact fun answer => ih answer (h answer) fun times => hPQ (r.readings answer ++ times)

theorem Ensures.of_forall (t : Routine α) (h : ∀ times a, P times a) : t.Ensures P := by
  induction t generalizing P with
  | done a => exact h [] a
  | ask r next ih => exact fun answer => ih answer fun times => h (r.readings answer ++ times)

theorem Ensures.bind (h : t.Ensures P)
    (hf : ∀ times a, P times a → (f a).Ensures fun more b => R (times ++ more) b) :
    (t.bind f).Ensures R := by
  induction t generalizing P R with
  | done a => exact hf [] a h
  | ask r next ih =>
    refine fun answer => ih answer (h answer) fun times a ha => ?_
    have hnext := hf (r.readings answer ++ times) a ha
    simpa only [List.append_assoc] using hnext

/-- So does a run, whatever others do meanwhile. -/
theorem Ensures.amid (h : t.Ensures P) (others : Others) (m : Machine) :
    P (t.amid others m).1.2 (t.amid others m).1.1 := by
  induction t generalizing P others m with
  | done a => exact h
  | ask r next ih => exact ih _ (h _) (fun n => others (n + 1)) _

theorem Asks.bind {P : Request → Prop} (h : t.Asks P)
    (hf : t.Ensures fun _ a => (f a).Asks P) : (t.bind f).Asks P := by
  induction t with
  | done a => exact hf
  | ask r next ih => exact ⟨h.1, fun answer => ih answer (h.2 answer) (hf answer)⟩

end Routine

/-! ### Operations -/

namespace Session

def adopt (s : Session) (handle : String) (ring : Keyring) : Session :=
  close { s with
    rings := put s.rings s.opened ring
    handles := put s.handles handle s.opened
    opened := s.opened + 1 }

def numbered? (s : Session) (handle : String) : Option (Nat × Keyring) := do
  let n ← s.number? handle
  let ring ← s.rings.lookup n
  return (n, ring)

def outcome {α : Type} (answer : α → Outcome) : Except Fault α → Outcome
  | .ok a => answer a
  | .error fault => .fault fault

/-- A routine on the keyring that has a handle, whose keyring is kept in the place of the one
before. -/
def use {α : Type} (s : Session) (handle : String)
    (routine : Keyring → Routine (Except Fault α × Keyring)) (answer : α → Outcome) :
    Routine (Outcome × Session) :=
  match s.numbered? handle with
  | none => .done (.noHandle, s)
  | some (n, ring) => (routine ring).bind fun (result, ring) =>
    .done (outcome answer result, { s with rings := put s.rings n ring })

/-- An operation as a routine, which ends in what it answers and what becomes of the session, but
for its machine. -/
def plan (s : Session) : Operation → Routine (Outcome × Session)
  | .openFor handle resolver options user context =>
    (Keyring.openFor resolver options user context).bind fun
      | .ok ring => .done (.done, s.adopt handle ring)
      | .error fault => .done (.fault fault, s)
  | .bestKey handle => s.use handle Keyring.bestKey .key
  | .reload handle addNew => s.use handle (·.reload addNew) fun _ => .done
  | .clone handle copy => .done (s.step (.clone handle copy))
  | .drop handle => .done (s.step (.drop handle))

/-- Either no keyring has the handle, or the routine is that on a keyring. -/
theorem use_cases {α : Type} (s : Session) (handle : String)
    (routine : Keyring → Routine (Except Fault α × Keyring)) (answer : α → Outcome) :
    s.use handle routine answer = .done (.noHandle, s) ∨
      ∃ n ring, s.number? handle = some n ∧ s.rings.lookup n = some ring ∧
        s.use handle routine answer = (routine ring).bind fun (result, ring) =>
          .done (outcome answer result, { s with rings := put s.rings n ring }) := by
  simp only [use, numbered?, Option.bind_eq_bind, Option.pure_def]
  cases s.number? handle with
  | none => exact Or.inl rfl
  | some n =>
    simp only [Option.bind_some]
    cases hring : s.rings.lookup n with
    | none => exact Or.inl rfl
    | some ring => exact Or.inr ⟨n, ring, rfl, hring, rfl⟩

/-- Running a routine on a keyring is running it for the session. -/
theorem use_run {α : Type} (s : Session) (handle : String)
    (routine : Keyring → Routine (Except Fault α × Keyring)) (answer : α → Outcome) :
    (((s.use handle routine answer).run s.machine).1.1,
      ((s.use handle routine answer).run s.machine).1.2.onMachine fun _ =>
        ((s.use handle routine answer).run s.machine).2) =
    match s.update handle routine with
    | none => (.noHandle, s)
    | some (result, s) => (outcome answer result, s) := by
  simp only [use, numbered?, update, perform, Option.bind_eq_bind, Option.pure_def]
  cases s.number? handle with
  | none => rfl
  | some n =>
    simp only [Option.bind_some]
    cases s.rings.lookup n with
    | none => rfl
    | some ring =>
      simp only [Option.bind_some, Routine.run_bind]
      rfl

/-- An operation is its plan, run on the session's machine. -/
theorem step_eq_plan (s : Session) (op : Operation) : s.step op =
    (((s.plan op).run s.machine).1.1,
      ((s.plan op).run s.machine).1.2.onMachine fun _ => ((s.plan op).run s.machine).2) := by
  cases op with
  | openFor handle resolver options user context =>
    simp only [step, plan, openFor, perform, Routine.run_bind]
    cases ((Keyring.openFor resolver options user context).run s.machine).1 <;> rfl
  | bestKey handle =>
    rw [plan, use_run, step]
    rcases s.update handle Keyring.bestKey with _ | ⟨_ | _, _⟩ <;> rfl
  | reload handle addNew =>
    rw [plan, use_run, step]
    rcases s.update handle (·.reload addNew) with _ | ⟨_ | _, _⟩ <;> rfl
  | clone handle copy =>
    simp only [plan, step, clone, Option.bind_eq_bind, Option.pure_def]
    cases s.number? handle <;> rfl
  | drop handle => rfl

/-- Does one operation while others change the machine before each of its requests: what it
answers, with the readings of the clock, and the session after it. -/
def stepAmid (s : Session) (others : Others) (op : Operation) :
    (Outcome × List Instant) × Session :=
  let ((result, times), m) := (s.plan op).amid others s.machine
  ((result.1, times), result.2.onMachine fun _ => m)

/-- Where others do nothing, it is the usual step. -/
theorem stepAmid_idle (s : Session) (op : Operation) :
    ((s.stepAmid (fun _ => id) op).1.1, (s.stepAmid (fun _ => id) op).2) = s.step op := by
  have hrun := (s.plan op).amid_idle s.machine
  rw [step_eq_plan, ← hrun]
  rfl

end Session

end Keyrings
