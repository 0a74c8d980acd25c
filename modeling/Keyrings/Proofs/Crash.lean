import Keyrings.Proofs.Readiness

/-! Renewals that are stopped, after any of their requests or within the one that fills the
temporary file. The file of the keyring is the old one or the whole new one, and beside it only the
marker and one temporary file may be left. Whoever opens the keyring then finds the keys of one of
the two files, and whoever renews it goes on from there. -/

namespace Keyrings

namespace Routine

variable {α : Type}

/-- The machine that a routine leaves which is stopped after some requests. If it is stopped within
the next one and this fills a file, some first bytes have been written. -/
def stop : Routine α → Nat → Option Nat → Machine → Machine
  | r, n + 1, torn, m => (r.step m).1.stop n torn (r.step m).2
  | .ask (.store path bytes) _, 0, some k, m =>
    { m with files := m.files.store m.cwd path (bytes.take k) }
  | _, 0, _, m => m

theorem stop_done (a : α) (n : Nat) (torn : Option Nat) (m : Machine) :
    (done a).stop n torn m = m := by
  induction n with
  | zero => rfl
  | succ n ih => exact ih

theorem stop_zero_none (r : Routine α) (m : Machine) : r.stop 0 none m = m := by
  cases r with
  | done a => rfl
  | ask request next => cases request <;> rfl

end Routine

namespace Keyring

/-- What a renewal leaves of a tree wherever it is stopped: the file is the old one or, if the
renewal was going to succeed, the one that it writes; and only the marker and one temporary file
come or go beside it. -/
structure Survived (ring : Keyring) (cwd : Location) (old : FileTree)
    (result : Except Fault Unit × Keyring) (t : FileTree) : Prop where
  nearby : ∃ x, FileTree.SameBut cwd [ring.file, ring.marker, temporaryFor ring.file x]
    old t
  file : t.entryAt cwd ring.file = old.entryAt cwd ring.file ∨
    result.1 = .ok () ∧ t.entryAt cwd ring.file =
      .ok (.file privateFileMode (KeyFile.serialize result.2.keys))

section Stop

variable {ring : Keyring} {directory : Path} {context : List Char} (h : ring.IsOf directory context)
  {now : Instant} {cwd : Location} {old v t u : FileTree} {m : Machine}
  {r : Routine (Except Fault Unit × Keyring)} {result : Except Fault Unit × Keyring}
include h

/-- The marker may go at the end. -/
theorem Survived.of_marker (hs : Survived ring cwd old result t)
    (hsame : FileTree.SameBut cwd [ring.marker] t u) : Survived ring cwd old result u := by
  obtain ⟨⟨x, hnearby⟩, hfile⟩ := hs
  have hentry := h.entryAt_of_sameBut hsame fun p hp => Or.inl (List.mem_singleton.mp hp)
  refine ⟨⟨x, hnearby.trans (hsame.mono (by simp))⟩, ?_⟩
  rwa [hentry]

/-- Until the move there is the old file. -/
theorem survived_before (hv : FileTree.SameBut cwd [ring.marker] old v) {x : Uuid}
    (hsame : FileTree.SameBut cwd [temporaryFor ring.file x] v t) :
    Survived ring cwd old result t := by
  refine ⟨⟨x, (hv.mono (by simp)).trans (hsame.mono (by simp))⟩, Or.inl ?_⟩
  rw [h.entryAt_of_sameBut hsame fun p hp => Or.inr ⟨x, List.mem_singleton.mp hp⟩,
    h.entryAt_of_sameBut hv fun p hp => Or.inl (List.mem_singleton.mp hp)]

theorem Inside.survived (hv : FileTree.SameBut cwd [ring.marker] old v)
    (hin : ring.Inside now cwd v r t) (m : Machine) : Survived ring cwd old (r.run m).1 t := by
  cases hin with
  | loads | drawsId | drawsSecret | names | creates =>
    exact survived_before h hv (x := ⟨0⟩) (.refl ..)
  | stores _ hsame _ | moves _ hsame _ | clears hsame | failed hsame =>
    exact survived_before h hv hsame
  | @written keys x _ hkeys hsame hfile =>
    refine ⟨⟨x, (hv.mono (by simp)).trans (hsame.mono (by simp))⟩, Or.inr ⟨rfl, ?_⟩⟩
    exact hfile.entryAt_eq h.file_endsInSeparator

omit h in
/-- A request under the lock is done as a whole unless it fills the temporary file. -/
theorem Inside.stop_zero (hin : ring.Inside now m.cwd v r m.files) (torn : Option Nat) :
    r.stop 0 torn m = m ∨ ∃ x, FileTree.SameBut m.cwd [temporaryFor ring.file x] v
      (r.stop 0 torn m).files := by
  generalize ht : m.files = t at hin
  cases hin with
  | drawsId n =>
    left
    cases n with
    | zero => rfl
    | succ n =>
      rw [drawing_succ]
      rfl
  | @stores keys x _ hkeys hsame hfile =>
    cases torn with
    | none => exact Or.inl rfl
    | some k =>
      obtain ⟨hsame', -⟩ := FileTree.sameBut_store (List.mem_singleton_self _) (ht ▸ hfile)
        ((KeyFile.serialize keys).take k)
      exact Or.inr ⟨x, hsame.trans (ht ▸ hsame')⟩
  | _ => exact Or.inl rfl

/-- By induction on the requests that are made under the lock. -/
theorem Inside.stop (hv : FileTree.SameBut cwd [ring.marker] old v) (hcwd : m.cwd = cwd)
    (hin : ring.Inside now cwd v r m.files) (hu : m.Undisturbed) (n : Nat) (torn : Option Nat) :
    Survived ring cwd old (r.run m).1 (r.stop n torn m).files := by
  induction n generalizing r m with
  | zero =>
    subst hcwd
    rcases hin.stop_zero torn with hstop | ⟨x, hsame⟩
    · rw [hstop]
      exact hin.survived h hv m
    · exact survived_before h hv hsame
  | succ n ih =>
    have hu' := hu.step r
    have hcwd' := (r.step_cwd m).trans hcwd
    have hsurvived := hin.survived h hv m
    rw [← hcwd] at hin
    have hadvance := hin.step h hu.quiet
    rw [← Routine.run_step] at hsurvived ⊢
    rw [Routine.stop]
    generalize r.step m = next at hu' hcwd' hsurvived hadvance ⊢
    cases hadvance with
    | on hnext => exact ih hcwd' (hcwd ▸ hnext) hu'
    | written hkeys hbefore hfile hnext => exact ih hcwd' (hcwd ▸ hnext) hu'
    | ended hr hsame =>
      rw [Routine.stop_done]
      exact hsurvived.of_marker h (hcwd ▸ hsame)

/-- By induction on the requests that are made before the lock. -/
theorem Outside.stop (hold : FileTree.SameBut cwd [ring.marker] old m.files) (hcwd : m.cwd = cwd)
    (hout : ring.Outside now r) (hu : m.Undisturbed) (n : Nat) (torn : Option Nat) :
    Survived ring cwd old (r.run m).1 (r.stop n torn m).files := by
  induction n generalizing now r m with
  | zero =>
    have hstop : r.stop 0 torn m = m := by
      cases hout with
      | looks =>
        rw [renew_eq]
        rfl
      | waits w => cases w <;> rfl
    rw [hstop]
    exact survived_before h hold (x := ⟨0⟩) (.refl ..)
  | succ n ih =>
    have hu' := hu.step r
    have hcwd' := (r.step_cwd m).trans hcwd
    have happroach := hout.step hu h.marker_endsInSeparator
    rw [← Routine.run_step, Routine.stop]
    generalize r.step m = next at hu' hcwd' happroach ⊢
    cases happroach with
    | looked hfiles => exact ih (hfiles ▸ hold) hcwd' (.waits _) hu'
    | waited hfiles => exact ih (hfiles ▸ hold) hcwd' (.waits _) hu'
    | entered hcreate =>
      obtain ⟨hsame, -⟩ := FileTree.sameBut_create (List.mem_singleton_self _)
        h.marker_endsInSeparator hcreate
      exact Inside.stop h (hold.trans (hcwd ▸ hsame)) hcwd' .loads hu' n torn
    | broke hsame => exact ih (hold.trans (hcwd ▸ hsame)) hcwd' (.waits _) hu'
    | refused hfiles =>
      rw [Routine.stop_done]
      exact survived_before h (hfiles ▸ hold) (x := ⟨0⟩) (.refl ..)

omit h in
/-- Whoever reads the file finds the old bytes or the new ones. -/
theorem Survived.contents (hs : Survived ring cwd old result t) :
    t.contents cwd ring.file = old.contents cwd ring.file ∨
      result.1 = .ok () ∧ t.contents cwd ring.file = KeyFile.serialize result.2.keys := by
  rcases hs.file with hfile | ⟨hok, hfile⟩
  · left
    rw [FileTree.contents, FileTree.contents, FileTree.read, FileTree.read, hfile]
  · refine Or.inr ⟨hok, ?_⟩
    rw [FileTree.contents, FileTree.read, hfile]
    rfl

end Stop

/-- Opening succeeds and loads the file, whatever stands beside it. -/
theorem openFor_loads {resolver : HomeResolver} {options : KeyringOptions}
    {user : Option (List Char)} {home : Path} {context : List Char}
    (hhome : resolver user = .ok home) (hv : Context.isValid context = true) (m : Machine) :
    ∃ opened after, (openFor resolver options user context).run m = (.ok opened, after) ∧
      opened.keys =
        saved m.files m.cwd ((home.join options.subdir).join ⟨context⟩) m.clock.now := by
  simp only [openFor, hhome, hv, if_true, Routine.bind_eq, Routine.run_bind, openIn_run]
  exact ⟨_, _, rfl, rfl⟩

/-- Wherever a renewal is stopped, the file is the old one or the whole new one; whoever opens the
keyring later loads the keys of one of the two; and a renewal of another process that has what it
needs, with paths that are not too long, succeeds and keeps all keys that it finds. -/
theorem crash_safe {ring : Keyring} {directory : Path} {context : List Char}
    (h : ring.IsOf directory context) {m : Machine} (hu : m.Undisturbed) (n : Nat)
    (torn : Option Nat) :
    let t := ((ring.reload true).stop n torn m).files
    let result := ((ring.reload true).run m).1
    Survived ring m.cwd m.files result t ∧
    (∀ (resolver : HomeResolver) (options : KeyringOptions) (user : Option (List Char))
      (home : Path) (reader : Machine), resolver user = .ok home →
      home.join options.subdir = directory → reader.files = t → reader.cwd = m.cwd →
      ∃ opened after bytes, (openFor resolver options user context).run reader =
        (.ok opened, after) ∧ opened.keys = KeyFile.parse bytes reader.clock.now ∧
        (bytes = m.files.contents m.cwd ring.file ∨
          result.1 = .ok () ∧ bytes = KeyFile.serialize result.2.keys)) ∧
    ∀ (other : Keyring) (reader : Machine), reader.files = t → reader.cwd = m.cwd →
      other.Ready directory context reader →
      FileTree.byteLength
        (temporaryFor other.file (reader.uuids reader.uuidCount)).text <
          FileTree.pathLimit →
      ((other.reload true).run reader).1.1 = .ok () ∧ ∃ key,
        ((other.reload true).run reader).1.2.keys =
          saved t m.cwd ring.file reader.clock.now ++ [key] ∧
        ((other.reload true).run reader).2.files.read m.cwd ring.file =
          .ok (KeyFile.serialize (saved t m.cwd ring.file reader.clock.now ++ [key])) := by
  intro t result
  have hold : FileTree.SameBut m.cwd [ring.marker] m.files m.files := .refl ..
  have hsurvived : Survived ring m.cwd m.files result t :=
    Outside.stop h hold rfl (.looks : ring.Outside 0 ring.renew) hu n torn
  refine ⟨hsurvived, ?_, ?_⟩
  · intro resolver options user home reader hhome hdir hfiles hcwd
    obtain ⟨opened, after, hrun, hkeys⟩ := openFor_loads hhome h.valid reader
    refine ⟨opened, after, t.contents m.cwd ring.file, hrun, ?_, hsurvived.contents⟩
    rw [hkeys, hdir, ← h.file_eq, saved, hfiles, hcwd]
  · intro other reader hfiles hcwd hready hpath
    have hfile : other.file = ring.file := hready.isOf.file_eq.trans h.file_eq.symm
    have hkeeps := hready.renew_keeps hpath
    rwa [hfiles, hcwd, hfile] at hkeeps

def filled : Machine :=
  sampleMachine [([['h']], .directory 0o700),
    ([['h'], ['c']], .file 0o600 (KeyFile.serialize [⟨7, 990, [171]⟩]))] id

/-- The machine of another process, after a renewal was stopped that had the lock and had written
ten bytes of its temporary file. -/
def successor : Machine :=
  { (sampleRing.reload true).stop 7 (some 10) filled with clock := { now := 1100 } }

theorem sampleRing_isOf : sampleRing.IsOf ⟨['/', 'h']⟩ ['c'] := isOf_inDirectory (by decide) _ _

theorem successor_ready : sampleRing.Ready ⟨['/', 'h']⟩ ['c'] successor where
  isOf := sampleRing_isOf
  undisturbed := ⟨fun _ _ => rfl, fun d hd => absurd hd List.not_mem_nil, fun _ => rfl⟩
  directory_stands := ⟨0o700, by decide +kernel⟩
  context_short := by decide
  file_plain mode h := by
    have hfile : successor.files.entryAt successor.cwd sampleRing.file =
        .ok (.file 0o600 (KeyFile.serialize [⟨7, 990, [171]⟩])) := by decide +kernel
    rw [hfile] at h
    cases h
  marker_plain mode h := by
    have hmarker : successor.files.entryAt successor.cwd sampleRing.marker =
        .ok (.file 0o600 []) := by decide +kernel
    rw [hmarker] at h
    cases h
  temporary_new e h := by
    have hnew : successor.files.entryAt successor.cwd
        (temporaryFor sampleRing.file (successor.uuids successor.uuidCount)) =
          .error .notFound := by
      decide +kernel
    rw [hnew] at h
    cases h
  key_drawn := ⟨_, rfl⟩

/-- The other process breaks the marker that was left, and keeps the key of the old file. -/
theorem crash_safe_torn :
    let t := ((sampleRing.reload true).stop 7 (some 10) filled).files
    filled.Undisturbed ∧ sampleRing.Ready ⟨['/', 'h']⟩ ['c'] successor ∧
    Survived sampleRing filled.cwd filled.files ((sampleRing.reload true).run filled).1 t ∧
    saved t filled.cwd sampleRing.file 1100 = [⟨7, 990, [171]⟩] ∧
    ((sampleRing.reload true).run successor).1.1 = .ok () ∧ ∃ key,
      ((sampleRing.reload true).run successor).1.2.keys =
        saved t filled.cwd sampleRing.file 1100 ++ [key] ∧
      ((sampleRing.reload true).run successor).2.files.read filled.cwd sampleRing.file =
        .ok (KeyFile.serialize (saved t filled.cwd sampleRing.file 1100 ++ [key])) := by
  intro t
  have hu : filled.Undisturbed := ⟨fun _ _ => rfl, by simp [filled, sampleMachine], fun _ => rfl⟩
  have hpath : FileTree.byteLength
      (temporaryFor sampleRing.file (successor.uuids successor.uuidCount)).text <
        FileTree.pathLimit := by
    decide +kernel
  obtain ⟨hsurvived, -, hrecovers⟩ := crash_safe sampleRing_isOf hu 7 (some 10)
  exact ⟨hu, successor_ready, hsurvived, by decide +kernel,
    hrecovers sampleRing successor rfl rfl successor_ready hpath⟩

/-! ### Paths that are too long -/

/-- A path of a directory to which no name can be added. -/
def longDirectory : Path := ⟨"/h".toList ++ List.replicate 4093 '/'⟩

def longRing : Keyring := inDirectory longDirectory ['c'] ⟨0, Duration.ofMillis 5⟩

def plainMachine : Machine := sampleMachine [([['h']], .directory 0o700)] id

theorem longRing_isOf : longRing.IsOf longDirectory ['c'] := isOf_inDirectory (by decide) _ _

/-- All its paths are too long. -/
theorem longRing_extend {ending : List Char} (hnul : '\x00' ∉ ending) :
    '\x00' ∉ (longRing.file.extend ending).text ∧
      FileTree.pathLimit ≤ FileTree.byteLength (longRing.file.extend ending).text := by
  have htext : (longRing.file.extend ending).text = longDirectory.stem ++ ['c'] ++ ending := by
    rw [longRing_isOf.file_eq, Path.extend, Path.text_join _ longRing_isOf.isName]
  have hdirectory : FileTree.byteLength longDirectory.text = 4095 := by
    have hslashes : FileTree.byteLength (List.replicate 4093 '/') = 4093 := by
      rw [FileTree.byteLength_eq_length fun c hc => by rw [List.eq_of_mem_replicate hc]; rfl,
        List.length_replicate]
    rw [longDirectory, FileTree.byteLength_append, hslashes]
    rfl
  have hplain : '\x00' ∉ longDirectory.text := by
    intro hm
    rcases List.mem_append.mp hm with hm | hm
    · exact absurd hm (by decide)
    · exact absurd (List.eq_of_mem_replicate hm) (by decide)
  have hstem : '\x00' ∉ longDirectory.stem ∧ 4095 ≤ FileTree.byteLength longDirectory.stem := by
    unfold Path.stem
    split_ifs
    · exact ⟨hplain, Nat.le_of_eq hdirectory.symm⟩
    · rw [FileTree.byteLength_append, hdirectory]
      exact ⟨by simp [hplain], Nat.le_add_right _ _⟩
  have hlimit : FileTree.pathLimit = 4096 := rfl
  have hc : FileTree.byteLength ['c'] = 1 := rfl
  rw [htext, FileTree.byteLength_append, FileTree.byteLength_append, hlimit, hc]
  exact ⟨by simp [hstem.1, hnul], by omega⟩

/-- Nothing is found at any of them. -/
theorem entryAt_longRing (t : FileTree) (cwd : Location) {ending : List Char}
    (hnul : '\x00' ∉ ending) :
    t.entryAt cwd (longRing.file.extend ending) = .error .nameTooLong := by
  obtain ⟨hplain, hlong⟩ := longRing_extend hnul
  exact FileTree.entryAt_of_long hplain hlong

theorem plainMachine_ready : longRing.Ready longDirectory ['c'] plainMachine where
  isOf := longRing_isOf
  undisturbed := ⟨fun _ _ => rfl, fun d hd => absurd hd List.not_mem_nil, fun _ => rfl⟩
  directory_stands := ⟨0o700, by decide +kernel⟩
  context_short := by decide
  file_plain mode h := by
    have hfile : longRing.file.extend [] = longRing.file := by simp [Path.extend]
    rw [← hfile, entryAt_longRing _ _ (by simp)] at h
    cases h
  marker_plain mode h := by
    rw [longRing_isOf.marker_eq, entryAt_longRing _ _ (by decide)] at h
    cases h
  temporary_new e h := by
    rw [longRing_isOf.temporary_eq, entryAt_longRing _ _ (not_mem_temporaryEnding _).2] at h
    cases h
  key_drawn := by
    have hfile : longRing.file.extend [] = longRing.file := by simp [Path.extend]
    have hnone : saved plainMachine.files plainMachine.cwd longRing.file plainMachine.clock.now =
        [] := by
      rw [saved, FileTree.contents, FileTree.read, ← hfile, entryAt_longRing _ _ (by simp)]
      rfl
    rw [hnone]
    exact ⟨_, rfl⟩

/-- Without a limit on its paths a renewal may fail, even where the one before was stopped at its
start and left nothing. -/
theorem recovery_limited : ¬ ∀ (ring other : Keyring) (directory : Path) (context : List Char)
    (m reader : Machine) (n : Nat) (torn : Option Nat), ring.IsOf directory context →
    m.Undisturbed → reader.files = ((ring.reload true).stop n torn m).files →
    reader.cwd = m.cwd → other.Ready directory context reader →
    ((other.reload true).run reader).1.1 = .ok () := by
  intro hall
  have hready := plainMachine_ready
  have hstop := congrArg Machine.files (Routine.stop_zero_none (longRing.reload true) plainMachine)
  have hok := hall longRing longRing longDirectory ['c'] plainMachine plainMachine 0 none
    hready.isOf hready.undisturbed hstop.symm rfl hready
  have hending : '\x00' ∉ markerEnding := by decide
  obtain ⟨hnul, hlong⟩ := longRing_extend hending
  rw [← longRing_isOf.marker_eq] at hnul hlong
  have hrenew : longRing.reload true = longRing.renew := rfl
  rw [hrenew] at hok
  exact renew_of_long hnul hlong plainMachine hok

end Keyring

end Keyrings
