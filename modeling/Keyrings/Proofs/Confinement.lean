import Keyrings.Proofs.Crash
import Keyrings.Proofs.Loads

/-! What the keyrings of a context touch. Whatever is answered to them, they name their directory,
to make it, and a few names below it, which no other context uses: the full stop that starts an
ending separates it from the context, in which there is none. So wherever a keyring is stopped, the
files are those from before but for these names, and other contexts have theirs. -/

namespace Keyrings

namespace Keyring

/-! ### Names -/

/-- The names that the keyrings of a context use in their directory. -/
inductive Uses (context : List Char) : List Char → Prop
  | file : Uses context context
  | marker : Uses context (context ++ markerEnding)
  | temporary (u : Uuid) : Uses context (context ++ temporaryEnding u)

namespace Uses

variable {context other name : List Char}

/-- A name is the context with an ending that is empty or starts with a full stop. -/
theorem exists_ending (h : Uses context name) :
    ∃ ending, name = context ++ ending ∧ ∀ c ∈ ending.head?, c = '.' := by
  cases h with
  | file => exact ⟨[], (List.append_nil _).symm, by simp⟩
  | marker => exact ⟨markerEnding, rfl, fun c hc => by cases hc; rfl⟩
  | temporary u => exact ⟨temporaryEnding u, rfl, fun c hc => by cases hc; rfl⟩

theorem isName (hv : Context.isValid context = true) (h : Uses context name) : IsName name := by
  have hof := isOf_inDirectory hv ⟨[]⟩ LockPolicy.standard
  cases h with
  | file => exact hof.isName
  | marker => exact hof.isName_marker
  | temporary u => exact hof.isName_temporary u

/-- The context of a name is what stands before the first full stop. -/
theorem takeWhile_eq (hv : Context.isValid context = true) (h : Uses context name) :
    name.takeWhile (· ≠ '.') = context := by
  have hplain : ∀ c ∈ context, decide (c ≠ '.') = true := by
    intro c hc
    have hne : c ≠ '.' := fun he => Context.not_mem hv (by decide) (he ▸ hc)
    simpa using hne
  obtain ⟨ending, rfl, hstop⟩ := h.exists_ending
  refine (Decimal.takeWhile_append_of_stop hplain fun c hc => ?_).1
  simpa using hstop c hc

/-- Two contexts have no name in common. -/
theorem context_unique (hv : Context.isValid context = true) (ho : Context.isValid other = true)
    (h : Uses context name) (h' : Uses other name) : context = other := by
  rw [← h.takeWhile_eq hv, h'.takeWhile_eq ho]

/-- What a context uses beside its own name is no context. -/
theorem isValid_eq_false (h : Uses context name) (hne : name ≠ context) :
    Context.isValid name = false := by
  obtain ⟨ending, rfl, hstop⟩ := h.exists_ending
  cases ending with
  | nil => simp at hne
  | cons c rest =>
    obtain rfl := hstop c rfl
    exact Bool.eq_false_iff.mpr fun hv => Context.not_mem hv (c := '.') (by decide) (by simp)

end Uses

/-! ### Changes -/

/-- The files are those from before, but for the directory of a keyring, which may have been made,
and for files of its context in there, which may have come or gone or have other contents. -/
def Confined (cwd : Location) (directory : Path) (context : List Char) (t u : FileTree) : Prop :=
  ∀ l, u.lookup l = t.lookup l ∨
    (t.lookup l = none ∧ u.HasDirectory l ∧
      u.walk (directory.start cwd) directory.names = .ok l) ∨
    ∃ d name, u.walk (directory.start cwd) directory.names = .ok d ∧ Uses context name ∧
      l = d ++ [name] ∧ (t.HasDirectory l ↔ u.HasDirectory l)

namespace Confined

variable {cwd : Location} {directory : Path} {context : List Char} {t u v : FileTree}

theorem refl (cwd : Location) (directory : Path) (context : List Char) (t : FileTree) :
    Confined cwd directory context t t := fun _ => Or.inl rfl

/-- No directory goes. -/
theorem hasDirectory (h : Confined cwd directory context t u) {l : Location}
    (hl : t.HasDirectory l) : u.HasDirectory l := by
  rcases h l with heq | ⟨hnone, -, -⟩ | ⟨d, name, -, -, -, hsame⟩
  · obtain ⟨mode, hmode⟩ := hl
    exact ⟨mode, heq.trans hmode⟩
  · exact absurd hl (FileTree.not_hasDirectory_of_none hnone)
  · exact hsame.mp hl

theorem walk_eq (h : Confined cwd directory context t u) {here there : Location}
    {names : List (List Char)} (hw : t.walk here names = .ok there) :
    u.walk here names = .ok there :=
  FileTree.walk_eq_ok_of_le (fun _ => h.hasDirectory) hw

theorem hasDirectory_congr {l : Location} (h : u.lookup l = t.lookup l) :
    t.HasDirectory l ↔ u.HasDirectory l := by
  rw [FileTree.HasDirectory, FileTree.HasDirectory, h]

theorem trans (h : Confined cwd directory context t u)
    (h' : Confined cwd directory context u v) : Confined cwd directory context t v := by
  intro l
  rcases h' l with heq' | ⟨hnone', hd', hw'⟩ | ⟨d', name', hw', huses', hl', hsame'⟩
  · rcases h l with heq | ⟨hnone, hd, hw⟩ | ⟨d, name, hw, huses, hl, hsame⟩
    · exact Or.inl (heq'.trans heq)
    · exact Or.inr (Or.inl ⟨hnone, h'.hasDirectory hd, h'.walk_eq hw⟩)
    · exact Or.inr (Or.inr ⟨d, name, h'.walk_eq hw, huses, hl,
        hsame.trans (hasDirectory_congr heq')⟩)
  · rcases h l with heq | ⟨hnone, hd, -⟩ | ⟨d, name, hw, huses, hl, -⟩
    · exact Or.inr (Or.inl ⟨heq ▸ hnone', hd', hw'⟩)
    · exact absurd hd (FileTree.not_hasDirectory_of_none hnone')
    · -- A name in the directory is not the directory.
      rw [h'.walk_eq hw] at hw'
      cases hw'
      simp at hl
  · refine Or.inr (Or.inr ⟨d', name', hw', huses', hl', ?_⟩)
    rcases h l with heq | ⟨-, -, hw⟩ | ⟨-, -, -, -, -, hsame⟩
    · exact (hasDirectory_congr heq).trans hsame'
    · rw [h'.walk_eq hw] at hw'
      cases hw'
      simp at hl'
    · exact hsame.trans hsame'

/-- Files that come and go under the paths of a keyring. -/
theorem of_sameBut (hv : Context.isValid context = true) {paths : List Path}
    (hpaths : ∀ p ∈ paths, ∃ name, Uses context name ∧ p = directory.join ⟨name⟩)
    (h : FileTree.SameBut cwd paths t u) : Confined cwd directory context t u := by
  intro l
  by_cases hl : ∃ p ∈ paths, t.locate cwd p = .ok (.name l)
  · obtain ⟨p, hp, hlocate⟩ := hl
    obtain ⟨name, huses, rfl⟩ := hpaths p hp
    obtain ⟨d, hd, hplace⟩ := FileTree.locate_join (huses.isName hv) hlocate
    exact Or.inr (Or.inr ⟨d, name, h.directories.walk_eq_ok_iff.mp hd, huses, hplace,
      h.directories l⟩)
  · push Not at hl
    exact Or.inl (h.lookup_eq l hl)

/-- The directory of a keyring is made where nothing stands. -/
theorem of_makeDirectory {mode : Mode} (h : t.makeDirectory cwd directory mode = .ok u) :
    Confined cwd directory context t u := by
  obtain ⟨l, hnone, rfl, hwalk, -⟩ := FileTree.walk_of_makeDirectory h
  intro k
  by_cases hk : k = l
  · subst hk
    have hne : k ≠ [] := by
      rintro rfl
      simp [FileTree.lookup] at hnone
    exact Or.inr (Or.inl ⟨hnone, ⟨mode, FileTree.lookup_insert_self t hne _⟩, hwalk⟩)
  · exact Or.inl (FileTree.lookup_insert_of_ne t hk _)

section Bystander

variable (h : Confined cwd directory context t u) {name : List Char} {d : Location}
  (hd : u.walk (directory.start cwd) directory.names = .ok d)
include h hd

theorem lookup_eq (hfree : ¬ Uses context name) :
    u.lookup (d ++ [name]) = t.lookup (d ++ [name]) := by
  rcases h (d ++ [name]) with heq | ⟨-, -, hw⟩ | ⟨d', name', -, huses, hl, -⟩
  · exact heq
  · rw [hd] at hw
    simp at hw
  · cases (List.append_inj' hl rfl).2
    exact absurd huses hfree

/-- There was nothing in a directory that has been made since. -/
theorem lookup_eq_none (hg : t.Grounded)
    (hnew : t.walk (directory.start cwd) directory.names ≠ .ok d) (name : List Char) :
    t.lookup (d ++ [name]) = none := by
  refine Classical.byContradiction fun hthere => hnew ?_
  have hstood : t.HasDirectory d := hg d name hthere
  -- The one directory that may be new is the one that stood there, so that none is.
  refine FileTree.walk_eq_ok_of_le (fun k hk => ?_) hd
  rcases h k with heq | ⟨hnone, -, hw⟩ | ⟨-, -, -, -, -, hsame⟩
  · exact (hasDirectory_congr heq).mpr hk
  · rw [hd] at hw
    cases hw
    exact absurd hstood (FileTree.not_hasDirectory_of_none hnone)
  · exact hsame.mpr hk

end Bystander

/-- A name that a context does not use has the entry that it had, or none as before, in a tree in
which everything stands in directories. -/
theorem entryAt_eq (h : Confined cwd directory context t u) (hg : t.Grounded) {name : List Char}
    (hn : IsName name) (hfree : ¬ Uses context name) :
    (u.entryAt cwd (directory.join ⟨name⟩)).toOption =
      (t.entryAt cwd (directory.join ⟨name⟩)).toOption := by
  rcases FileTree.locate_join_cases u cwd directory hn with ⟨e, hu⟩ | ⟨d, hd, hu⟩
  · rcases FileTree.locate_join_cases t cwd directory hn with ⟨e', ht⟩ | ⟨d, hd, ht⟩
    · simp [FileTree.entryAt, hu, ht, Except.toOption]
    · rw [FileTree.locate_join_congr hn hd (h.walk_eq hd), ht] at hu
      cases hu
  · have hlook := h.lookup_eq hd hfree
    rcases FileTree.locate_join_cases t cwd directory hn with ⟨e, ht⟩ | ⟨d', hd', ht⟩
    · have hnew : t.walk (directory.start cwd) directory.names ≠ .ok d := fun hold => by
        rw [FileTree.locate_join_congr hn hold hd, ht] at hu
        cases hu
      rw [FileTree.entryAt_of_none hu (hlook.trans (h.lookup_eq_none hd hg hnew name))]
      simp [FileTree.entryAt, ht, Except.toOption]
    · have hsame := h.walk_eq hd'
      rw [hd] at hsame
      cases hsame
      simp only [FileTree.entryAt, hu, ht, hlook]

end Confined

/-! ### Requests -/

/-- The requests that the keyrings of a context may make. Where they change files they name the
directory, to make it, or names of the context below it. -/
inductive Asked (directory : Path) (context : List Char) : Request → Prop
  | now : Asked directory context .now
  | sleep (time : Duration) : Asked directory context (.sleep time)
  | draw (count : Nat) : Asked directory context (.draw count)
  | uuid : Asked directory context .uuid
  | read : Asked directory context (.read (directory.join ⟨context⟩))
  | create {name : List Char} (h : Uses context name) (mode : Mode) :
      Asked directory context (.create (directory.join ⟨name⟩) mode)
  | store {name : List Char} (h : Uses context name) (bytes : List UInt8) :
      Asked directory context (.store (directory.join ⟨name⟩) bytes)
  | rename {name : List Char} (h : Uses context name) :
      Asked directory context (.rename (directory.join ⟨name⟩) (directory.join ⟨context⟩))
  | remove {name : List Char} (h : Uses context name) :
      Asked directory context (.remove (directory.join ⟨name⟩))
  | makeDirectory (mode : Mode) : Asked directory context (.makeDirectory directory mode)

section Asks

variable {P : Request → Prop} {file : Path}

/-- Making a key asks for nothing but random bytes. -/
theorem drawId_asks (hdraw : ∀ count, P (.draw count)) (existing : List Key) (n : Nat) :
    (drawId existing n).Asks P := by
  induction n with
  | zero => trivial
  | succ n ih =>
    refine ⟨hdraw idLength, fun answer => ?_⟩
    cases answer with
    | error fault => trivial
    | ok block =>
      simp only [Routine.done_bind]
      cases usableId? existing block.bytes with
      | none => exact ih
      | some id => trivial

theorem freshKey_asks (hdraw : ∀ count, P (.draw count)) (existing : List Key) (now : Instant) :
    (freshKey existing now).Asks P := by
  refine (drawId_asks hdraw existing maxIdAttempts).bind (.of_forall _ fun _ result => ?_)
  cases result with
  | error fault => trivial
  | ok id => exact ⟨hdraw secretLength, fun answer => by cases answer <;> trivial⟩

/-- A replacement asks for an identifier, and for what it does to the temporary file. -/
theorem replace_asks (huuid : P .uuid)
    (hcreate : ∀ u mode, P (.create (temporaryFor file u) mode))
    (hstore : ∀ u bytes, P (.store (temporaryFor file u) bytes))
    (hrename : ∀ u, P (.rename (temporaryFor file u) file))
    (hremove : ∀ u, P (.remove (temporaryFor file u))) (bytes : List UInt8) :
    (replace file bytes).Asks P := by
  refine ⟨huuid, fun u => ⟨hcreate u _, fun created => ?_⟩⟩
  cases created with
  | error e => exact ⟨hremove u, fun _ => trivial⟩
  | ok _ =>
    refine ⟨hstore u bytes, fun stored => ?_⟩
    cases stored with
    | error e => exact ⟨hremove u, fun _ => trivial⟩
    | ok _ =>
      refine ⟨hrename u, fun moved => ?_⟩
      cases moved with
      | error e => exact ⟨hremove u, fun _ => trivial⟩
      | ok _ => trivial

theorem extendFile_asks (hread : P (.read file)) (hdraw : ∀ count, P (.draw count))
    (hreplace : ∀ bytes, (replace file bytes).Asks P) (now : Instant) :
    (extendFile file now).Asks P := by
  have hload : (load file now).Asks P := ⟨hread, fun answer => by cases answer <;> trivial⟩
  refine hload.bind (.of_forall _ fun _ old => ?_)
  refine (freshKey_asks hdraw old now).bind (.of_forall _ fun _ result => ?_)
  cases result with
  | error fault => trivial
  | ok key =>
    refine (hreplace _).bind (.of_forall _ fun _ result => ?_)
    cases result <;> trivial

end Asks

section Of

variable {ring : Keyring} {directory : Path} {context : List Char} (h : ring.IsOf directory context)
include h

theorem IsOf.acquire_asks :
    (Lock.acquire ring.marker ring.policy).Asks (Asked directory context) := by
  rw [h.marker_join]
  unfold Lock.acquire
  induction ring.policy.maxTimeouts with
  | zero =>
    exact ⟨.remove .marker, fun _ => ⟨.create .marker _, fun answer => by cases answer <;> trivial⟩⟩
  | succ n ih =>
    refine ⟨.create .marker _, fun answer => ?_⟩
    cases answer with
    | error e => exact ⟨.sleep _, fun _ => ih⟩
    | ok _ => trivial

theorem IsOf.load_asks (now : Instant) : (load ring.file now).Asks (Asked directory context) := by
  rw [h.file_eq]
  exact ⟨.read, fun answer => by cases answer <;> trivial⟩

theorem IsOf.replace_asks (bytes : List UInt8) :
    (replace ring.file bytes).Asks (Asked directory context) := by
  refine Keyring.replace_asks .uuid ?_ ?_ ?_ ?_ bytes <;> intro u <;> rw [h.temporary_join]
  · exact .create (.temporary u)
  · exact .store (.temporary u)
  · rw [h.file_eq]
    exact .rename (.temporary u)
  · exact .remove (.temporary u)

theorem IsOf.extendFile_asks (now : Instant) :
    (extendFile ring.file now).Asks (Asked directory context) := by
  refine Keyring.extendFile_asks ?_ .draw h.replace_asks now
  rw [h.file_eq]
  exact .read

theorem IsOf.refresh_asks : ring.refresh.Asks (Asked directory context) := by
  exact ⟨.now, fun now => (h.load_asks now).bind (.of_forall _ fun _ _ => trivial)⟩

theorem IsOf.renew_asks : ring.renew.Asks (Asked directory context) := by
  refine ⟨.now, fun now => h.acquire_asks.bind ((Lock.acquire_ensures _ _).mono ?_)⟩
  rintro - result ⟨-, hlock⟩
  cases result with
  | error fault => trivial
  | ok lock =>
    obtain rfl := hlock lock rfl
    refine (h.extendFile_asks now).bind (.of_forall _ fun _ result => ?_)
    refine ⟨?_, fun _ => by cases result <;> trivial⟩
    rw [h.marker_join]
    exact .remove .marker

theorem IsOf.reload_asks (addNew : Bool) :
    (ring.reload addNew).Asks (Asked directory context) := by
  cases addNew with
  | true => exact h.renew_asks
  | false => exact h.refresh_asks.bind (.of_forall _ fun _ _ => trivial)

theorem IsOf.bestKey_asks : ring.bestKey.Asks (Asked directory context) := by
  refine ⟨.now, fun now => ?_⟩
  simp only [Routine.done_bind]
  cases findRecent ring.keys now with
  | some k => trivial
  | none =>
    refine h.renew_asks.bind (.of_forall _ fun _ result => ?_)
    obtain ⟨outcome, ring'⟩ := result
    cases outcome with
    | error fault => trivial
    | ok _ =>
      refine ⟨.now, fun later => ?_⟩
      simp only [Routine.done_bind]
      cases findRecent ring'.keys later <;> trivial

end Of

section Place

variable {place : Place} {resolver : HomeResolver} {options : KeyringOptions}
  {user : Option (List Char)} (hhome : resolver user = .ok place.home)
  (hsubdir : options.subdir = place.subdir)
include hhome hsubdir

/-- Opening a keyring of a place, if the context is one. -/
theorem openFor_eq : openFor resolver options user place.context =
    if Context.isValid place.context then
      (inDirectory place.directory place.context options.policy).refresh.bind fun ring =>
        .ask (.makeDirectory ring.directory privateDirectoryMode) fun _ => .done (.ok ring)
    else .done (.error (.failed .invalidContext)) := by
  simp only [openFor, hhome, openIn, hsubdir, Place.directory, Routine.bind_eq, Routine.bind_assoc]
  rfl

theorem openFor_isOf : (openFor resolver options user place.context).Ensures fun _ result =>
    ∀ ring, result = .ok ring → ring.IsOf place.directory place.context := by
  rw [openFor_eq hhome hsubdir]
  split_ifs with hv
  · have hof := isOf_inDirectory hv place.directory options.policy
    refine (refresh_ensures _).bind fun _ ring hrefresh answer ring' h => ?_
    obtain ⟨-, keys, -, -, rfl⟩ := hrefresh
    cases h
    exact hof.with_keys keys
  · exact fun ring h => by cases h

theorem openFor_asks :
    (openFor resolver options user place.context).Asks (Asked place.directory place.context) := by
  rw [openFor_eq hhome hsubdir]
  split_ifs with hv
  · have hof := isOf_inDirectory hv place.directory options.policy
    refine hof.refresh_asks.bind ((refresh_ensures _).mono fun _ ring hrefresh => ?_)
    obtain ⟨-, keys, -, -, rfl⟩ := hrefresh
    exact ⟨.makeDirectory _, fun _ => trivial⟩
  · trivial

end Place

end Keyring

/-! ### Moments -/

namespace Routine

variable {α β : Type}

/-- Two routines in sequence are stopped within the first, or within the second on the machine that
the first leaves. -/
theorem stop_bind (t : Routine α) (f : α → Routine β) (n : Nat) (torn : Option Nat) (m : Machine) :
    (t.bind f).stop n torn m = t.stop n torn m ∨
      ∃ k, (t.bind f).stop n torn m = (f (t.run m).1).stop k torn (t.run m).2 := by
  induction t generalizing n m with
  | done a => exact Or.inr ⟨n, rfl⟩
  | ask r next ih =>
    cases n with
    | zero =>
      left
      cases r <;> cases torn <;> rfl
    | succ n => exact ih (m.answer r).1 n (m.answer r).2

/-- Stopped late enough, a routine has run to its end. -/
theorem exists_stop_eq_run (t : Routine α) (m : Machine) : ∃ n, t.stop n none m = (t.run m).2 := by
  induction t generalizing m with
  | done a => exact ⟨0, stop_done a 0 none m⟩
  | ask r next ih =>
    obtain ⟨n, hn⟩ := ih (m.answer r).1 (m.answer r).2
    exact ⟨n + 1, hn⟩

/-- Wherever a routine is stopped, it has changed no files but those of a context. -/
def StaysIn (t : Routine α) (directory : Path) (context : List Char) (m : Machine) : Prop :=
  ∀ n torn, Keyring.Confined m.cwd directory context m.files (t.stop n torn m).files

namespace StaysIn

variable {directory : Path} {context : List Char} {m : Machine} {t : Routine α}
  {f : α → Routine β} {r : Request} {next : r.Answer → Routine α}

theorem done (a : α) : (Routine.done a).StaysIn directory context m := fun n torn => by
  rw [stop_done]
  exact .refl _ _ _ _

theorem ask (hr : ∀ path bytes, r ≠ .store path bytes)
    (hfirst : Keyring.Confined m.cwd directory context m.files (m.answer r).2.files)
    (hrest : (next (m.answer r).1).StaysIn directory context (m.answer r).2) :
    (Routine.ask r next).StaysIn directory context m := by
  intro n torn
  cases n with
  | zero =>
    have hstop : (Routine.ask r next).stop 0 torn m = m := by
      cases r with
      | store path bytes => exact absurd rfl (hr path bytes)
      | _ => rfl
    rw [hstop]
    exact .refl _ _ _ _
  | succ n =>
    have hnext := hrest n torn
    rw [m.answer_cwd] at hnext
    exact hfirst.trans hnext

theorem run (h : t.StaysIn directory context m) :
    Keyring.Confined m.cwd directory context m.files (t.run m).2.files := by
  obtain ⟨n, hn⟩ := t.exists_stop_eq_run m
  rw [← hn]
  exact h n none

theorem bind (h : t.StaysIn directory context m)
    (hf : (f (t.run m).1).StaysIn directory context (t.run m).2) :
    (t.bind f).StaysIn directory context m := by
  intro n torn
  rcases t.stop_bind f n torn m with hstop | ⟨k, hstop⟩
  · rw [hstop]
    exact h n torn
  · have hlater := hf k torn
    rw [t.run_cwd] at hlater
    rw [hstop]
    exact h.run.trans hlater

end StaysIn

end Routine

namespace Keyring

section StaysIn

variable {ring : Keyring} {directory : Path} {context : List Char} (h : ring.IsOf directory context)
  {m : Machine}
include h

omit h in
theorem load_staysIn (file : Path) (now : Instant) :
    (load file now).StaysIn directory context m := by
  refine .ask nofun (.refl _ _ _ _) ?_
  cases (m.answer (.read file)).1 <;> exact .done _

omit h in
theorem refresh_staysIn (ring : Keyring) : ring.refresh.StaysIn directory context m := by
  refine .ask nofun (.refl _ _ _ _) ?_
  exact (load_staysIn ring.file _).bind (.done _)

theorem IsOf.renew_staysIn (hu : m.Undisturbed) : ring.renew.StaysIn directory context m := by
  intro n torn
  have hold : FileTree.SameBut m.cwd [ring.marker] m.files m.files := .refl ..
  obtain ⟨x, hnearby⟩ :=
    (Outside.stop h hold rfl (.looks : ring.Outside 0 ring.renew) hu n torn).nearby
  refine Confined.of_sameBut h.valid ?_ hnearby
  simp only [List.forall_mem_cons]
  exact ⟨⟨_, .file, h.file_eq⟩, ⟨_, .marker, h.marker_join⟩,
    ⟨_, .temporary x, h.temporary_join x⟩, by simp⟩

theorem IsOf.reload_staysIn (hu : m.Undisturbed) (addNew : Bool) :
    (ring.reload addNew).StaysIn directory context m := by
  cases addNew with
  | true => exact h.renew_staysIn hu
  | false => exact (refresh_staysIn ring).bind (.done _)

theorem IsOf.bestKey_staysIn (hu : m.Undisturbed) :
    ring.bestKey.StaysIn directory context m := by
  refine .ask nofun (.refl _ _ _ _) ?_
  simp only [Routine.done_bind]
  cases findRecent ring.keys (m.answer .now).1 with
  | some k => exact .done _
  | none =>
    refine (h.renew_staysIn (hu.answer .now)).bind ?_
    generalize ring.renew.run (m.answer .now).2 = result
    obtain ⟨⟨outcome, ring'⟩, m'⟩ := result
    cases outcome with
    | error fault => exact .done _
    | ok _ =>
      refine .ask nofun (.refl _ _ _ _) ?_
      simp only [Routine.done_bind]
      cases findRecent ring'.keys (m'.answer .now).1 <;> exact .done _

end StaysIn

theorem openFor_staysIn {place : Place} {resolver : HomeResolver} {options : KeyringOptions}
    {user : Option (List Char)} (hhome : resolver user = .ok place.home)
    (hsubdir : options.subdir = place.subdir) (m : Machine) :
    (openFor resolver options user place.context).StaysIn place.directory place.context m := by
  rw [openFor_eq hhome hsubdir]
  split_ifs
  · refine (refresh_staysIn _).bind (.ask nofun ?_ (.done _))
    rw [refresh_run]
    simp only [Machine.answer]
    cases hm : FileTree.makeDirectory _ _ _ _ with
    | error e => exact .refl _ _ _ _
    | ok u => exact .of_makeDirectory hm
  · exact .done _

end Keyring

end Keyrings
