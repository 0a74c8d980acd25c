import Keyrings.Proofs.Contexts
import Keyrings.Proofs.Likeness
import Keyrings.Proofs.Listing

/-! Secrets influence nothing but themselves. Two runs of a program that read alike files go on side
by side: they make the same requests, but for the secrets in what they store, and get the same
answers, but for the secrets in what they read. Each routine of a keyring is such a program, because
it decides by the identifiers and times of keys alone, and writes only keys that have a secret. -/

namespace Keyrings

/-! ### Machines -/

def Request.reads : Request → Bool
  | .read _ => true
  | _ => false

/-- A change of files that is the same whatever the secrets in them are. -/
def FileTree.Oblivious (change : FileTree → FileTree) : Prop :=
  ∀ t u, t.Alike u → (change t).Alike (change u)

namespace Machine

/-- What others do to files does not depend on secrets. -/
structure Oblivious (m : Machine) : Prop where
  others : ∀ i, FileTree.Oblivious (m.others i)
  script : ∀ d ∈ m.random.script, FileTree.Oblivious d.before
  after : FileTree.Oblivious m.random.after.before

/-- Machines that differ in nothing but secrets in files. -/
inductive Alike (m : Machine) : Machine → Prop
  | mk {files : FileTree} (h : m.files.Alike files) : Alike m { m with files := files }

variable {m m' : Machine}

/-- Nobody who leaves files alone looks at secrets. -/
theorem Undisturbed.oblivious (h : m.Undisturbed) : m.Oblivious where
  others i t u ht := by rwa [h.others_eq, h.others_eq]
  script d hd t u ht := by rwa [h.quiet.script d hd, h.quiet.script d hd]
  after t u ht := by rwa [h.quiet.after, h.quiet.after]

namespace Oblivious

theorem next (h : m.Oblivious) : FileTree.Oblivious m.random.next.1.before ∧
    (∀ d ∈ m.random.next.2.script, FileTree.Oblivious d.before) ∧
    FileTree.Oblivious m.random.next.2.after.before := by
  unfold Randomness.next
  cases hs : m.random.script with
  | nil => exact ⟨h.after, h.script, h.after⟩
  | cons d rest =>
    have hscript := h.script
    rw [hs, List.forall_mem_cons] at hscript
    exact ⟨hscript.1, hscript.2, h.after⟩

theorem answer (h : m.Oblivious) (r : Request) : (m.answer r).2.Oblivious := by
  have hchange : ∀ outcome, (m.change outcome).2.Oblivious := by
    intro outcome
    cases outcome <;> exact ⟨h.others, h.script, h.after⟩
  cases r with
  | draw count => exact ⟨h.others, h.next.2.1, h.next.2.2⟩
  | now => exact ⟨h.others, h.script, h.after⟩
  | sleep time => exact ⟨h.others, h.script, h.after⟩
  | uuid => exact ⟨h.others, h.script, h.after⟩
  | read path => exact h
  | store path bytes => exact ⟨h.others, h.script, h.after⟩
  | create path mode => exact hchange _
  | rename source target => exact hchange _
  | remove path => exact hchange _
  | makeDirectory path mode => exact hchange _

theorem run {α : Type} (h : m.Oblivious) (t : Routine α) : (t.run m).2.Oblivious := by
  induction t generalizing m with
  | done a => exact h
  | ask request next ih => exact ih _ (h.answer request)

end Oblivious

namespace Alike

theorem files_alike (h : m.Alike m') : m.files.Alike m'.files := by
  obtain ⟨hfiles⟩ := h
  exact hfiles

theorem sleeps_eq (h : m.Alike m') : m.sleeps = m'.sleeps := by
  cases h
  rfl

theorem draws_eq (h : m.Alike m') : m.draws = m'.draws := by
  cases h
  rfl

theorem change {outcome outcome' : Except FileError FileTree}
    (h : Agree FileTree.Alike outcome outcome') {files : FileTree} (hfiles : m.files.Alike files) :
    Paired Alike (m.change outcome) (change { m with files := files } outcome') := by
  cases h with
  | ok h => exact ⟨_, .mk h⟩
  | error e => exact ⟨_, .mk hfiles⟩

/-- A request that reads nothing has the same answer and leaves the machines alike. -/
theorem answer (h : m.Alike m') (ho : m.Oblivious) {r : Request} (hr : r.reads = false) :
    Paired Alike (m.answer r) (m'.answer r) := by
  obtain ⟨hfiles⟩ := h
  cases r with
  | read path => cases hr
  | now => exact ⟨_, .mk hfiles⟩
  | sleep time => exact ⟨_, .mk (ho.others m.sleepCount _ _ hfiles)⟩
  | draw count => exact ⟨_, .mk (ho.next.1 _ _ hfiles)⟩
  | uuid => exact ⟨_, .mk hfiles⟩
  | store path bytes => exact ⟨_, .mk (hfiles.store m.cwd path fun _ => rfl)⟩
  | create path mode => exact change (hfiles.create m.cwd path mode) hfiles
  | rename source target => exact change (hfiles.rename m.cwd source target) hfiles
  | remove path => exact change (hfiles.remove m.cwd path) hfiles
  | makeDirectory path mode => exact change (hfiles.makeDirectory m.cwd path mode) hfiles

theorem answer_read (h : m.Alike m') (path : Path) :
    Agree KeyFile.Alike (m.answer (.read path)).1 (m'.answer (.read path)).1 := by
  obtain ⟨hfiles⟩ := h
  exact hfiles.read m.cwd path

theorem answer_store (h : m.Alike m') (path : Path) {bytes bytes' : List UInt8}
    (hbytes : KeyFile.Alike bytes bytes') :
    (m.answer (.store path bytes)).2.Alike (m'.answer (.store path bytes')).2 := by
  obtain ⟨hfiles⟩ := h
  exact .mk (hfiles.store m.cwd path hbytes)

end Alike

end Machine

/-! ### Two runs side by side -/

namespace Routine

variable {α β γ δ : Type}

/-- Two routines that make the same requests, but for secrets in what they store, as long as they
get the same answers, but for secrets in what they read; they end in related values. -/
inductive Alike (R : α → β → Prop) : Routine α → Routine β → Prop
  | done {a : α} {b : β} (h : R a b) : Alike R (.done a) (.done b)
  | ask {r : Request} {next : r.Answer → Routine α} {next' : r.Answer → Routine β}
      (hr : r.reads = false) (h : ∀ answer, Alike R (next answer) (next' answer)) :
      Alike R (.ask r next) (.ask r next')
  | read {path : Path} {next : Except FileError (List UInt8) → Routine α}
      {next' : Except FileError (List UInt8) → Routine β}
      (h : ∀ answer answer', Agree KeyFile.Alike answer answer' →
        Alike R (next answer) (next' answer')) :
      Alike R (.ask (.read path) next) (.ask (.read path) next')
  | store {path : Path} {bytes bytes' : List UInt8} {next : Except FileError Unit → Routine α}
      {next' : Except FileError Unit → Routine β} (hbytes : KeyFile.Alike bytes bytes')
      (h : ∀ answer, Alike R (next answer) (next' answer)) :
      Alike R (.ask (.store path bytes) next) (.ask (.store path bytes') next')

namespace Alike

variable {R : α → β → Prop} {S : γ → δ → Prop} {t : Routine α} {t' : Routine β}

theorem bind {f : α → Routine γ} {g : β → Routine δ} (h : Alike R t t')
    (hfg : ∀ a b, R a b → Alike S (f a) (g b)) : Alike S (t.bind f) (t'.bind g) := by
  induction h with
  | done h => exact hfg _ _ h
  | ask hr _ ih => exact .ask hr ih
  | read _ ih => exact .read ih
  | store hbytes _ ih => exact .store hbytes ih

/-- Runs on machines that are alike end in related values, on machines that are alike. -/
theorem run {m m' : Machine} (h : Alike R t t') (hm : m.Alike m') (ho : m.Oblivious) :
    R (t.run m).1 (t'.run m').1 ∧ (t.run m).2.Alike (t'.run m').2 := by
  induction h generalizing m m' with
  | done h => exact ⟨h, hm⟩
  | @ask r next next' hr _ ih =>
    have hboth := hm.answer ho hr
    have hafter := ho.answer r
    rw [run_ask, run_ask]
    generalize m.answer r = x, m'.answer r = y at hboth hafter ⊢
    obtain ⟨answer, hboth⟩ := hboth
    exact ih answer hboth hafter
  | @read path next next' _ ih => exact ih _ _ (hm.answer_read path) hm ho
  | @store path bytes bytes' next next' hbytes _ ih =>
    exact ih _ (hm.answer_store path hbytes) (ho.answer (.store path bytes))

end Alike

end Routine

/-! ### Routines of a keyring -/

theorem drawId_alike {existing existing' : List Key}
    (h : ∀ id, hasId existing id = hasId existing' id) (n : Nat) :
    Routine.Alike Eq (drawId existing n) (drawId existing' n) := by
  induction n with
  | zero => exact .done rfl
  | succ n ih =>
    have husable : usableId? existing = usableId? existing' := by
      funext draw
      simp only [usableId?, h]
    refine .ask rfl fun answer => ?_
    cases answer with
    | error fault => exact .done rfl
    | ok block =>
      simp only [Routine.done_bind, husable]
      cases usableId? existing' block.bytes with
      | none => exact ih
      | some id => exact .done rfl

/-- A new key is the same key in both runs: its identifier is drawn again because of identifiers
only, and its secret is drawn like everything else. -/
theorem freshKey_alike {existing existing' : List Key}
    (h : ∀ id, hasId existing id = hasId existing' id) (now : Instant) :
    Routine.Alike (Agree fun k k' => k = k' ∧ k.secret ≠ []) (freshKey existing now)
      (freshKey existing' now) := by
  refine (drawId_alike h maxIdAttempts).bind ?_
  rintro (fault | id) _ rfl
  · exact .done (.error fault)
  · refine .ask rfl fun answer => ?_
    cases answer with
    | error fault => exact .done (.error fault)
    | ok secret =>
      refine .done (.ok ⟨rfl, fun hs => ?_⟩)
      have hlength := secret.length_bytes
      rw [show secret.bytes = [] from hs] at hlength
      exact absurd hlength (by decide)

theorem Lock.acquire_alike (marker : Path) (policy : LockPolicy) :
    Routine.Alike Eq (acquire marker policy) (acquire marker policy) := by
  unfold acquire
  induction policy.maxTimeouts with
  | zero =>
    refine .ask rfl fun _ => .ask rfl fun answer => ?_
    cases answer <;> exact .done rfl
  | succ n ih =>
    refine .ask rfl fun answer => ?_
    cases answer with
    | ok _ => exact .done rfl
    | error e => exact .ask rfl fun _ => ih

namespace Keyring

/-- Keyrings that differ in nothing but the secrets of the loaded keys. -/
inductive Alike (ring : Keyring) : Keyring → Prop
  | mk {keys : List Key} (h : ring.keys.map Key.masked = keys.map Key.masked) :
    Alike ring { ring with keys := keys }

theorem load_alike (file : Path) (now : Instant) :
    Routine.Alike Twins (load file now) (load file now) := by
  refine .read fun answer answer' h => ?_
  cases h with
  | ok h => exact .done (h.twins now)
  | error e => exact .done ⟨rfl, List.forall_mem_nil _, List.forall_mem_nil _⟩

theorem replace_alike (file : Path) {bytes bytes' : List UInt8}
    (h : KeyFile.Alike bytes bytes') :
    Routine.Alike Eq (replace file bytes) (replace file bytes') := by
  refine .ask rfl fun u => .ask rfl fun created => ?_
  cases created with
  | error e => exact .ask rfl fun _ => .done rfl
  | ok _ =>
    refine .store h fun stored => ?_
    cases stored with
    | error e => exact .ask rfl fun _ => .done rfl
    | ok _ =>
      refine .ask rfl fun moved => ?_
      cases moved with
      | error e => exact .ask rfl fun _ => .done rfl
      | ok _ => exact .done rfl

theorem extendFile_alike (file : Path) (now : Instant) :
    Routine.Alike (Agree Twins) (extendFile file now) (extendFile file now) := by
  refine (load_alike file now).bind fun old old' hold => ?_
  refine (freshKey_alike hold.hasId_eq now).bind fun result result' hresult => ?_
  cases hresult with
  | error fault => exact .done (.error fault)
  | @ok key _ hkey =>
    obtain ⟨rfl, hsecret⟩ := hkey
    -- All that is written has secrets: old keys came from lines, and the new one was drawn in full.
    have hkeys := hold.append hsecret
    refine (replace_alike file hkeys.serialize).bind ?_
    rintro (e | _) _ rfl
    · exact .done (.error _)
    · exact .done (.ok hkeys)

section Rings

variable {ring ring' : Keyring} (h : ring.Alike ring')
include h

theorem Alike.refresh : Routine.Alike Alike ring.refresh ring'.refresh := by
  obtain ⟨-⟩ := h
  refine .ask rfl fun now => (load_alike ring.file now).bind fun keys keys' hkeys => ?_
  have hring : Alike { ring with keys := keys } { ring with keys := keys' } := .mk hkeys.masked_eq
  exact .done hring

theorem Alike.renew : Routine.Alike (Paired Alike) ring.renew ring'.renew := by
  obtain ⟨hkeys⟩ := h
  refine .ask rfl fun now => (Lock.acquire_alike ring.marker ring.policy).bind ?_
  rintro (fault | lock) _ rfl
  · exact .done ⟨_, .mk hkeys⟩
  · refine (extendFile_alike ring.file now).bind fun outcome outcome' houtcome => ?_
    refine .ask rfl fun _ => ?_
    cases houtcome with
    | error fault => exact .done ⟨_, .mk hkeys⟩
    | ok hnew => exact .done ⟨_, .mk hnew.masked_eq⟩

theorem Alike.reload (addNew : Bool) :
    Routine.Alike (Paired Alike) (ring.reload addNew) (ring'.reload addNew) := by
  cases addNew with
  | true => exact h.renew
  | false => exact h.refresh.bind fun _ _ hring => .done ⟨_, hring⟩

theorem Alike.masked_eq : ring.keys.map Key.masked = ring'.keys.map Key.masked := by
  obtain ⟨hkeys⟩ := h
  exact hkeys

/-- Whatever is told of keys without regard to their secrets is told of both. -/
theorem Alike.map_eq {α : Type} (f : Key → α) (hf : ∀ k, f k.masked = f k) :
    ring.keys.map f = ring'.keys.map f := by
  have hmap := congrArg (List.map f) h.masked_eq
  have hmasked : f ∘ Key.masked = f := funext hf
  rwa [List.map_map, List.map_map, hmasked] at hmap

theorem Alike.bestKey : Routine.Alike (Paired Alike) ring.bestKey ring'.bestKey := by
  refine .ask rfl fun now => ?_
  rcases findRecent_cases h.masked_eq now with ⟨hl, hr⟩ | ⟨k, k', hl, hr, hid⟩ <;>
    simp only [Routine.done_bind, hl, hr]
  · refine h.renew.bind ?_
    rintro _ _ ⟨fault | _, hring⟩
    · exact .done ⟨_, hring⟩
    · refine .ask rfl fun now => ?_
      rcases findRecent_cases hring.masked_eq now with ⟨hl, hr⟩ | ⟨k, k', hl, hr, hid⟩ <;>
        simp only [Routine.done_bind, hl, hr]
      · exact .done ⟨_, hring⟩
      · exact .done (hid ▸ ⟨_, hring⟩)
  · exact .done (hid ▸ ⟨_, h⟩)

end Rings

theorem openFor_alike (resolver : HomeResolver) (options : KeyringOptions)
    (user : Option (List Char)) (context : List Char) :
    Routine.Alike (Agree Alike) (openFor resolver options user context)
      (openFor resolver options user context) := by
  unfold openFor
  cases resolver user with
  | error fault => exact .done (.error fault)
  | ok home =>
    dsimp only
    split_ifs
    · refine Routine.Alike.bind (R := Alike) ?_ fun _ _ hring => .done (.ok hring)
      refine (Alike.refresh (.mk rfl)).bind fun ring ring' hring => ?_
      obtain ⟨hkeys⟩ := hring
      exact .ask rfl fun _ => .done (.mk hkeys)
    · exact .done (.error _)

end Keyring

/-! ### Commands -/

namespace CommandLine

/-- The line of a key tells nothing of its secret. -/
theorem listing_masked (k : Key) (now : Instant) : listing k.masked now = listing k now := rfl

/-- What a command prints is the same. -/
theorem Command.perform_alike (settings : Settings) (known : HomeDirectory) (command : Command) :
    Routine.Alike Eq (command.perform settings known) (command.perform settings known) := by
  cases command with
  | check context =>
    simp only [Command.perform]
    cases Context.check context <;> exact .done rfl
  | best context user =>
    refine (Keyring.openFor_alike _ _ user context).bind fun result result' hresult => ?_
    cases hresult with
    | error fault => exact .done rfl
    | ok hring =>
      refine hring.bestKey.bind ?_
      rintro _ _ ⟨fault | id, -⟩ <;> exact .done rfl
  | list context user =>
    refine (Keyring.openFor_alike _ _ user context).bind fun result result' hresult => ?_
    cases hresult with
    | error fault => exact .done rfl
    | ok hring =>
      refine .ask rfl fun now => .done ?_
      have hlines := hring.map_eq (listing · now) (listing_masked · now)
      obtain ⟨-⟩ := hring
      rw [hlines]

theorem run_alike (s : Surroundings) (arguments : List (List Char)) :
    Routine.Alike Eq (run s arguments) (run s arguments) := by
  unfold run
  cases s.settings with
  | error fault => exact .done rfl
  | ok found =>
    dsimp only
    cases Command.ofArguments? arguments with
    | none => exact .done rfl
    | some command =>
      refine (command.perform_alike found.1 found.2).bind ?_
      rintro (fault | lines) _ rfl <;> exact .done rfl

end CommandLine

/-! ### Sessions -/

namespace Session

/-- Sessions that differ in nothing but secrets, in files and in loaded keys. -/
structure Alike (s s' : Session) : Prop where
  machine : s.machine.Alike s'.machine
  rings : List.Forall₂ (Paired Keyring.Alike) s.rings s'.rings
  handles_eq : s.handles = s'.handles
  opened_eq : s.opened = s'.opened
  locks_eq : s.locks = s'.locks

def answers (s : Session) : List Operation → List Outcome
  | [] => []
  | op :: ops => (s.step op).1 :: (s.step op).2.answers ops

theorem ring?_eq (s : Session) (handle : String) :
    s.ring? handle = (s.numbered? handle).map Prod.snd := by
  simp only [ring?, Session.numbered?, Option.bind_eq_bind, Option.pure_def]
  cases s.number? handle with
  | none => rfl
  | some n => cases hring : s.rings.lookup n <;> simp [hring]

/-- Two tables of keyrings have keyrings under the same numbers. -/
theorem lookup_alike {rings rings' : List (Nat × Keyring)}
    (h : List.Forall₂ (Paired Keyring.Alike) rings rings') (n : Nat) :
    Option.Rel Keyring.Alike (rings.lookup n) (rings'.lookup n) := by
  induction h with
  | nil => exact .none
  | cons hxy _ ih =>
    obtain ⟨k, hring⟩ := hxy
    rw [List.lookup_cons, List.lookup_cons]
    cases n == k
    · exact ih
    · exact .some hring

namespace Alike

variable {s s' : Session} (h : s.Alike s')
include h

theorem close : s.close.Alike s'.close where
  machine := h.machine
  rings := by
    simp only [Session.close, h.handles_eq]
    exact Paired.filter h.rings fun n => s'.handles.any (·.2 == n)
  handles_eq := h.handles_eq
  opened_eq := h.opened_eq
  locks_eq := h.locks_eq

theorem put_rings (n : Nat) {ring ring' : Keyring} (hring : ring.Alike ring') :
    Alike { s with rings := put s.rings n ring } { s' with rings := put s'.rings n ring' } where
  machine := h.machine
  rings := .cons ⟨n, hring⟩ (Paired.filter h.rings (!· == n))
  handles_eq := h.handles_eq
  opened_eq := h.opened_eq
  locks_eq := h.locks_eq

theorem numbered? (handle : String) :
    Option.Rel (Paired Keyring.Alike) (s.numbered? handle) (s'.numbered? handle) := by
  simp only [Session.numbered?, number?, h.handles_eq, Option.bind_eq_bind, Option.pure_def]
  cases s'.handles.lookup handle with
  | none => exact .none
  | some n =>
    simp only [Option.bind_some]
    have hring := lookup_alike h.rings n
    generalize s.rings.lookup n = found, s'.rings.lookup n = found' at hring
    cases hring with
    | none => exact .none
    | some hring => exact .some ⟨n, hring⟩

theorem use {α : Type} (handle : String)
    {routine : Keyring → Routine (Except Fault α × Keyring)} (answer : α → Outcome)
    (hroutine : ∀ ring ring', ring.Alike ring' →
      Routine.Alike (Paired Keyring.Alike) (routine ring) (routine ring')) :
    Routine.Alike (Paired Alike) (s.use handle routine answer)
      (s'.use handle routine answer) := by
  unfold Session.use
  have hfound := h.numbered? handle
  generalize s.numbered? handle = found, s'.numbered? handle = found' at hfound
  cases hfound with
  | none => exact .done ⟨_, h⟩
  | some hxy =>
    obtain ⟨n, hring⟩ := hxy
    refine (hroutine _ _ hring).bind ?_
    rintro _ _ ⟨result, hring⟩
    exact .done ⟨_, h.put_rings n hring⟩

theorem with_handles (handles : List (String × Nat)) :
    Alike { s with handles := handles } { s' with handles := handles } :=
  ⟨h.machine, h.rings, rfl, h.opened_eq, h.locks_eq⟩

theorem adopt (handle : String) {ring ring' : Keyring} (hring : ring.Alike ring') :
    (s.adopt handle ring).Alike (s'.adopt handle ring') := by
  have hput := (h.put_rings s.opened hring).with_handles (put s.handles handle s.opened)
  simp only [Session.adopt, ← h.handles_eq, ← h.opened_eq]
  exact close ⟨hput.machine, h.opened_eq ▸ hput.rings, rfl, rfl, h.locks_eq⟩

theorem clone (handle copy : String) :
    Paired Alike (s.step (.clone handle copy)) (s'.step (.clone handle copy)) := by
  simp only [step, Session.clone, number?, h.handles_eq, Option.bind_eq_bind, Option.pure_def]
  cases s'.handles.lookup handle with
  | none => exact ⟨_, h⟩
  | some n => exact ⟨_, (h.with_handles (put s'.handles copy n)).close⟩

theorem drop (handle : String) :
    Paired Alike (s.step (.drop handle)) (s'.step (.drop handle)) := by
  simp only [step, Session.drop, number?, h.handles_eq]
  exact ⟨_, (h.with_handles (s'.handles.filter (!·.1 == handle))).close⟩

theorem plan (op : Operation) : Routine.Alike (Paired Alike) (s.plan op) (s'.plan op) := by
  cases op with
  | openFor handle resolver options user context =>
    refine (Keyring.openFor_alike resolver options user context).bind fun _ _ hresult => ?_
    cases hresult with
    | error fault => exact .done ⟨_, h⟩
    | ok hring => exact .done ⟨_, h.adopt handle hring⟩
  | bestKey handle => exact h.use handle .key fun _ _ hring => hring.bestKey
  | reload handle addNew =>
    exact h.use handle (fun _ => .done) fun _ _ hring => hring.reload addNew
  | clone handle copy => exact .done (h.clone handle copy)
  | drop handle => exact .done (h.drop handle)

/-- An operation answers the same in both sessions and leaves them alike. -/
theorem step (ho : s.machine.Oblivious) (op : Operation) :
    Paired Alike (s.step op) (s'.step op) := by
  obtain ⟨hresult, hmachine⟩ := (h.plan op).run h.machine ho
  rw [step_eq_plan, step_eq_plan]
  generalize ((s.plan op).run s.machine).1 = x, ((s'.plan op).run s'.machine).1 = y at hresult
  obtain ⟨answer, hnext⟩ := hresult
  exact ⟨answer, hmachine, hnext.rings, hnext.handles_eq, hnext.opened_eq, hnext.locks_eq⟩

end Alike

theorem step_oblivious {s : Session} (h : s.machine.Oblivious) (op : Operation) :
    (s.step op).2.machine.Oblivious := by
  rw [step_eq_plan]
  exact h.run (s.plan op)

/-- So do any operations in sequence. The induction is on the operations, and carries that the
sessions are alike and that nobody else looks at secrets. -/
theorem Alike.steps {s s' : Session} (h : s.Alike s') (ho : s.machine.Oblivious)
    (ops : List Operation) : s.answers ops = s'.answers ops ∧
    (s.steps ops).Alike (s'.steps ops) ∧ (s.steps ops).machine.Oblivious := by
  induction ops generalizing s s' with
  | nil => exact ⟨rfl, h, ho⟩
  | cons op ops ih =>
    have hstep := h.step ho op
    have hnext := step_oblivious ho op
    simp only [answers, Session.steps, List.foldl_cons] at ih ⊢
    generalize s.step op = x, s'.step op = y at hstep hnext ⊢
    obtain ⟨answer, hafter⟩ := hstep
    obtain ⟨hanswers, hlast⟩ := ih hafter hnext
    exact ⟨congrArg (answer :: ·) hanswers, hlast⟩

end Session

/-! ### Secrets -/

def Machine.saving (m : Machine) (l : Location) (mode : Mode) (keys : List Key) : Machine :=
  { m with files := m.files.insert l (.file mode (KeyFile.serialize keys)) }

/-- Keyrings that show the same: identifiers and times, lines in a list at any time, and a
description. -/
structure Keyring.ShowsSame (ring ring' : Keyring) : Prop where
  keys_eq : ring.keys.map (fun k => (k.id, k.created)) = ring'.keys.map fun k => (k.id, k.created)
  listing_eq : ∀ now, ring.keys.map (CommandLine.listing · now) =
    ring'.keys.map (CommandLine.listing · now)
  describe_eq : ring.describe = ring'.describe

theorem Keyring.Alike.showsSame {ring ring' : Keyring} (h : ring.Alike ring') :
    ring.ShowsSame ring' where
  keys_eq := h.map_eq (fun k => (k.id, k.created)) fun _ => rfl
  listing_eq now := h.map_eq _ (CommandLine.listing_masked · now)
  describe_eq := by
    have hfile : ring.file = ring'.file := by
      cases h
      rfl
    have hlength := congrArg List.length (h.map_eq Key.id fun _ => rfl)
    rw [List.length_map, List.length_map] at hlength
    unfold Keyring.describe
    rw [hfile, hlength]

/-- What has been done in two sessions, and what is left of them, shows the same. -/
structure Session.ShowsSame (s s' : Session) : Prop where
  files_alike : s.machine.files.Alike s'.machine.files
  sleeps_eq : s.machine.sleeps = s'.machine.sleeps
  draws_eq : s.machine.draws = s'.machine.draws
  handles_eq : s.handles = s'.handles
  rings : ∀ handle, Option.Rel Keyring.ShowsSame (s.ring? handle) (s'.ring? handle)
  printed_eq : ∀ surroundings arguments,
    ((CommandLine.run surroundings arguments).run s.machine).1 =
      ((CommandLine.run surroundings arguments).run s'.machine).1

namespace Session

theorem Alike.showsSame {s s' : Session} (h : s.Alike s') (ho : s.machine.Oblivious) :
    s.ShowsSame s' where
  files_alike := h.machine.files_alike
  sleeps_eq := h.machine.sleeps_eq
  draws_eq := h.machine.draws_eq
  handles_eq := h.handles_eq
  rings handle := by
    have hfound := h.numbered? handle
    rw [ring?_eq, ring?_eq]
    generalize s.numbered? handle = found, s'.numbered? handle = found' at hfound
    cases hfound with
    | none => exact .none
    | some hxy =>
      obtain ⟨n, hring⟩ := hxy
      exact .some hring.showsSame
  printed_eq surroundings arguments :=
    ((CommandLine.run_alike surroundings arguments).run h.machine ho).1

/-- Secrets do not influence anything but themselves. Two machines differ only in a file that was
written from keys with the same identifiers and times, with any secrets but empty ones, and nobody
else looks at secrets. Then any operations answer the same on both, with the same sleeps and draws,
and neither the keyrings that are open in the end nor what the program prints then tells the one
from the other. -/
theorem secrets_unseen {m : Machine} (hm : m.Oblivious) {keys keys' : List Key}
    (h : Twins keys keys') (l : Location) (mode : Mode) (ops : List Operation) :
    answers { machine := m.saving l mode keys } ops =
      answers { machine := m.saving l mode keys' } ops ∧
    (steps { machine := m.saving l mode keys } ops).ShowsSame
      (steps { machine := m.saving l mode keys' } ops) := by
  have hfiles := (FileTree.Alike.refl m.files).insert l (.file mode h.serialize)
  have hmachine : (m.saving l mode keys).Alike (m.saving l mode keys') :=
    .mk (m := m.saving l mode keys) hfiles
  have hstart : Alike { machine := m.saving l mode keys } { machine := m.saving l mode keys' } :=
    ⟨hmachine, .nil, rfl, rfl, rfl⟩
  have ho : (m.saving l mode keys).Oblivious := ⟨hm.others, hm.script, hm.after⟩
  obtain ⟨hanswers, halike, hoblivious⟩ := hstart.steps ho ops
  exact ⟨hanswers, halike.showsSame hoblivious⟩

/-- A machine with a marker beside the place of the file. Whoever has the lock gives it back during
the first sleep, and the first draw gives an identifier that is taken. -/
def watched : Machine where
  files := ⟨[([['h']], .directory 0o755), ([['h'], ['k']], .directory 0o700),
    ([['h'], ['k'], "c.lock".toList], .file 0o600 [])]⟩
  clock := { now := 1000 }
  random.script := [{ outcome := .ok [7, 0, 0, 0] }]
  random.after := { outcome := .ok [5, 0, 0, 0] }
  uuids n := ⟨BitVec.ofNat 128 n⟩
  others _ t := t.erase [['h'], ['k'], "c.lock".toList]

theorem watched_oblivious : watched.Oblivious where
  others _ t u h := h.erase _
  script d hd t u h := by
    obtain rfl : d = _ := List.mem_singleton.mp hd
    exact h
  after t u h := h

def watchedKeys (secret secret' : List UInt8) : List Key := [⟨7, 990, secret⟩, ⟨8, 500, secret'⟩]

def watchedSession (secret secret' : List UInt8) : Session where
  machine := watched.saving [['h'], ['k'], ['c']] 0o600 (watchedKeys secret secret')

/-- A key is handed out, one is added, and the file is read again. -/
def watchedOps : List Operation :=
  [sampleOpen "a", .bestKey "a", .reload "a" true, .reload "a" false]

/-- Secrets of other lengths change nothing of it. -/
theorem secrets_unseen_sample : watched.Oblivious ∧
    Twins (watchedKeys [1] [2, 3]) (watchedKeys [4, 5, 6] [7]) ∧
    (watchedSession [4, 5, 6] [7]).answers watchedOps = [.done, .key 7, .done, .done] ∧
    ((watchedSession [4, 5, 6] [7]).steps watchedOps).machine.sleeps = [Duration.ofMillis 250] ∧
    ((watchedSession [4, 5, 6] [7]).steps watchedOps).machine.draws = [24, 4, 4] ∧
    ((watchedSession [1] [2, 3]).steps watchedOps).ShowsSame
      ((watchedSession [4, 5, 6] [7]).steps watchedOps) := by
  have htwins : Twins (watchedKeys [1] [2, 3]) (watchedKeys [4, 5, 6] [7]) :=
    ⟨rfl, by simp [watchedKeys], by simp [watchedKeys]⟩
  obtain ⟨hanswers, hshows⟩ :=
    secrets_unseen watched_oblivious htwins [['h'], ['k'], ['c']] 0o600 watchedOps
  refine ⟨watched_oblivious, htwins, ?_, ?_, ?_, hshows⟩
  · exact hanswers.symm.trans rfl
  · exact hshows.sleeps_eq.symm.trans rfl
  · exact hshows.draws_eq.symm.trans rfl

end Session

end Keyrings
