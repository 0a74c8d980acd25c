import Keyrings.Routine

/-! A machine that routines run on: a file tree, a clock, a source of random bytes and
identifiers, and everybody else, who may change files while a routine sleeps or while random bytes
are drawn. -/

namespace Keyrings

/-- A clock that shows whole seconds. It moves on its own by a given amount after each look at it,
and by the time slept if it is told to. -/
structure Clock where
  now : Instant
  /-- How many nanoseconds of the second that it shows have passed. -/
  part : Fin Duration.perSecond := ⟨0, Duration.perSecond_pos⟩
  drift : Nat → Int64 := fun _ => 0
  looks : Nat := 0
  countsSleep : Bool := false
  /-- Whether what a sleep has beyond its whole seconds counts too. -/
  countsParts : Bool := false

namespace Clock

def look (c : Clock) : Instant × Clock :=
  (c.now, { c with now := c.now + c.drift c.looks, looks := c.looks + 1 })

/-- The clock set ahead, or back, by some seconds; it wraps around. -/
def advance (c : Clock) (seconds : Int64) : Clock := { c with now := c.now + seconds }

/-- The clock some nanoseconds later. Only full seconds show, and the rest is kept. -/
def pass (c : Clock) (nanos : Nat) : Clock :=
  { c.advance (Int64.ofNat ((c.part + nanos) / Duration.perSecond)) with
    part := ⟨(c.part + nanos) % Duration.perSecond, Nat.mod_lt _ Duration.perSecond_pos⟩ }

def sleep (c : Clock) (time : Duration) : Clock :=
  if c.countsSleep then
    c.pass (if c.countsParts then time.nanos else time.seconds * Duration.perSecond)
  else c

end Clock

/-- One draw from a source of random bytes: what others do to the files before it, and the bytes
that it gives, or the fault that it fails with. -/
structure Draw where
  before : FileTree → FileTree := id
  outcome : Except Fault (List UInt8)

/-- Bytes repeated to a length, or zeros if there are none to repeat. -/
def cycle (pattern : List UInt8) (n : Nat) : List UInt8 :=
  (List.range n).map fun i => pattern.getD (i % pattern.length) 0

/-- The draw's bytes, repeated to the length that is asked for. -/
def Draw.block (d : Draw) (n : Nat) : Except Fault (Block n) :=
  d.outcome.map fun pattern => ⟨cycle pattern n, by simp [cycle]⟩

/-- A source of random bytes: the draws to come, and the draw after those, forever. -/
structure Randomness where
  script : List Draw := []
  after : Draw

def Randomness.next (s : Randomness) : Draw × Randomness :=
  match s.script with
  | [] => (s.after, s)
  | d :: rest => (d, { s with script := rest })

/-- A machine, with a record of the sleeps and draws it was asked for, the latest first. -/
structure Machine where
  files : FileTree
  cwd : Location := []
  clock : Clock
  random : Randomness
  /-- The identifiers that the machine makes up, by number. -/
  uuids : Nat → Uuid
  /-- How many identifiers it has made up. -/
  uuidCount : Nat := 0
  /-- What others do to the files at the end of each sleep, by its number. -/
  others : Nat → FileTree → FileTree := fun _ => id
  /-- How many sleeps there were. -/
  sleepCount : Nat := 0
  sleeps : List Duration := []
  draws : List Nat := []

namespace Machine

/-- A change of the tree that may be refused, done or left. -/
def change (m : Machine) : Except FileError FileTree → Except FileError Unit × Machine
  | .ok files => (.ok (), { m with files := files })
  | .error e => (.error e, m)

/-- The answer to a request, and the machine after it. -/
def answer (m : Machine) : (r : Request) → r.Answer × Machine
  | .now =>
    let (time, clock) := m.clock.look
    (time, { m with clock := clock })
  | .sleep time =>
    ((), { m with
      clock := m.clock.sleep time
      files := m.others m.sleepCount m.files
      sleepCount := m.sleepCount + 1
      sleeps := time :: m.sleeps })
  | .draw count =>
    let (draw, random) := m.random.next
    (draw.block count, { m with
      files := draw.before m.files
      random := random
      draws := count :: m.draws })
  | .uuid => (m.uuids m.uuidCount, { m with uuidCount := m.uuidCount + 1 })
  | .read path => (m.files.read m.cwd path, m)
  | .create path mode => m.change (m.files.create m.cwd path mode)
  | .store path bytes => (.ok (), { m with files := m.files.store m.cwd path bytes })
  | .rename source target => m.change (m.files.rename m.cwd source target)
  | .remove path => m.change (m.files.remove m.cwd path)
  | .makeDirectory path mode => m.change (m.files.makeDirectory m.cwd path mode)

end Machine

namespace Routine

variable {α β : Type}

def run : Routine α → Machine → α × Machine
  | done a, m => (a, m)
  | ask r next, m => (next (m.answer r).1).run (m.answer r).2

def step : Routine α → Machine → Routine α × Machine
  | done a, m => (done a, m)
  | ask r next, m => (next (m.answer r).1, (m.answer r).2)

@[simp] theorem run_done (a : α) (m : Machine) : (done a).run m = (a, m) := rfl

@[simp] theorem run_ask (r : Request) (next : r.Answer → Routine α) (m : Machine) :
    (ask r next).run m = (next (m.answer r).1).run (m.answer r).2 := rfl

/-- A run of two routines in sequence is the run of the second on the machine that the first
leaves. -/
theorem run_bind (t : Routine α) (f : α → Routine β) (m : Machine) :
    (t.bind f).run m = (f (t.run m).1).run (t.run m).2 := by
  induction t generalizing m with
  | done a => rfl
  | ask r next ih => simp only [ask_bind, run_ask, ih]

/-- A step changes nothing about the run that follows it. -/
theorem run_step (t : Routine α) (m : Machine) : (t.step m).1.run (t.step m).2 = t.run m := by
  cases t <;> rfl

end Routine

end Keyrings
