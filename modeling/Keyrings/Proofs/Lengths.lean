import Keyrings.Proofs.Crash
import Keyrings.Proofs.Listing
import Keyrings.Proofs.Waiting

/-! Which contexts can be saved. Three names in the directory of a keyring come from its context:
that of the file, of the marker and of the temporary file, each longer than the one before. So a
context that is too long for the longest fails when the file is replaced, and one that is too long
for the marker fails when the lock is taken; both leave an empty directory empty. The paths of these
names have a limit of their own, and what fails is decided by whichever limit is passed. -/

namespace Keyrings

namespace FileTree

variable {t : FileTree} {cwd d : Location} {dir : Path} {name : List Char}

section Long

variable (hn : IsName name) (hdir : '\x00' ∉ dir.text)
  (hw : t.walk (dir.start cwd) dir.names = .ok d)
  (hlong : ¬ (byteLength name ≤ nameLimit ∧ byteLength (dir.join ⟨name⟩).text < pathLimit))
include hn hdir hw hlong

/-- A name that is too long, or has too long a path, has no place in a directory. -/
theorem locate_join_of_long : t.locate cwd (dir.join ⟨name⟩) = .error .nameTooLong ∧
    ∀ mode, t.create cwd (dir.join ⟨name⟩) mode = .error .nameTooLong := by
  have htext := Path.text_join dir hn
  have hnul : '\x00' ∉ (dir.join ⟨name⟩).text := by
    rw [htext, Path.stem]
    split_ifs
    · simp [hdir, hn.no_nul]
    · simp [hdir, hn.no_nul]
  by_cases hpath : byteLength (dir.join ⟨name⟩).text < pathLimit
  · have hname : nameLimit < byteLength name :=
      Nat.lt_of_not_le fun hle => hlong ⟨hle, hpath⟩
    have hleads : t.Leads cwd (dir.join ⟨name⟩) (.name (d ++ [name])) := by
      refine .name (Path.names_join dir hn) (not_or.mpr ⟨hn.ne_dot, hn.ne_dots⟩) ?_
      rwa [Path.start, Path.isAbsolute_join dir hn]
    have happroach : t.approach cwd (dir.join ⟨name⟩) = .ok (.name (d ++ [name])) :=
      approach_eq_ok.mpr ⟨⟨hnul, by rw [htext]; simp [hn.ne_nil], hpath⟩, hleads⟩
    have htoo : isTooLong (d ++ [name]) = true := by simpa [isTooLong] using hname
    have hsep := Path.endsInSeparator_join dir hn
    simp [locate, create, happroach, htoo, hsep]
  · have happroach : t.approach cwd (dir.join ⟨name⟩) = .error .nameTooLong :=
      approach_of_long hnul (Nat.le_of_not_lt hpath)
    simp [locate, create, happroach]

theorem remove_join_of_long : t.remove cwd (dir.join ⟨name⟩) = .error .nameTooLong := by
  simp only [remove, (locate_join_of_long hn hdir hw hlong).1]

end Long

end FileTree

namespace Lock

variable {marker : Path} (policy : LockPolicy) {m : Machine} {l : Location}

/-- Where there is room for a marker nothing is waited for. -/
theorem acquire_free (h : m.files.HasRoom m.cwd marker l) : (acquire marker policy).run m =
    (.ok ⟨marker⟩, { m with files := m.files.insert l (.file privateFileMode []) }) := by
  unfold acquire
  cases policy.maxTimeouts with
  | zero => exact seize_room h
  | succ n => exact (attempt_room h policy.timeout n).2

/-- Undisturbed, a marker that can neither be created nor removed is waited for to the end. -/
theorem acquire_stuck {e e' : FileError} (hothers : ∀ i t, m.others i t = t)
    (hc : m.files.create m.cwd marker privateFileMode = .error e)
    (hr : m.files.remove m.cwd marker = .error e') :
    ∃ m', (acquire marker policy).run m = (.error (.failed (.markerStuck marker e)), m') ∧
      m'.files = m.files ∧
      m'.sleeps = List.replicate policy.maxTimeouts policy.timeout ++ m.sleeps := by
  have hfiles : ∀ n, (m.slept policy.timeout n).files = m.files := by
    intro n
    induction n with
    | zero => rfl
    | succ n ih => rw [Machine.slept_files, hothers, ih]
  have hrefused : ∀ i < policy.maxTimeouts, Refused marker policy.timeout m i :=
    fun i _ => ⟨e, by rw [hfiles, hc]⟩
  have hcleared : ((m.slept policy.timeout policy.maxTimeouts).answer (.remove marker)).2 =
      m.slept policy.timeout policy.maxTimeouts := by
    simp only [Machine.answer, hfiles, Machine.slept_cwd, hr, Machine.change_error]
  refine ⟨m.slept policy.timeout policy.maxTimeouts, ?_, hfiles _, Machine.slept_sleeps _ _ _⟩
  rw [(acquire_refused hrefused).2]
  simp only [seize_run_eq, hcleared, hfiles, Machine.slept_cwd, hc]

end Lock

namespace Keyring

/-- A replacement whose temporary file can neither be created nor removed changes nothing. -/
theorem replace_refused {file : Path} {bytes : List UInt8} {m : Machine} {e e' : FileError}
    (hc : m.files.create m.cwd (temporaryFor file (m.uuids m.uuidCount))
      privateFileMode = .error e)
    (hr : m.files.remove m.cwd (temporaryFor file (m.uuids m.uuidCount)) = .error e') :
    (replace file bytes).run m = (.error e, { m with uuidCount := m.uuidCount + 1 }) := by
  simp only [replace, Routine.request, Routine.bind_eq, Routine.ask_bind, Routine.done_bind,
    Routine.run_ask, Machine.answer]
  simp only [hc, Machine.change_error, Routine.pure_eq, Routine.done_bind, Routine.run_ask,
    Machine.answer, hr, Routine.run_done]

/-- So does the extension of a file through it, after a key was drawn. -/
theorem extendFile_refused {file : Path} {now : Instant} {m : Machine} {e e' : FileError}
    {key : Key} (hq : m.random.Quiet)
    (hc : m.files.create m.cwd (temporaryFor file (m.uuids m.uuidCount))
      privateFileMode = .error e)
    (hr : m.files.remove m.cwd (temporaryFor file (m.uuids m.uuidCount)) = .error e')
    (hkey : ((freshKey (saved m.files m.cwd file now) now).run m).1 = .ok key) :
    ((extendFile file now).run m).1 = .error (.file e) := by
  have hdrawn := (freshKey_run (saved m.files m.cwd file now) now m).1
  simp only [extendFile, Routine.bind_eq, Routine.run_bind, load_run, hkey]
  generalize ((freshKey (saved m.files m.cwd file now) now).run m).2 = drawn at hdrawn ⊢
  rw [← hdrawn.files_eq hq, ← hdrawn.cwd_eq, ← hdrawn.uuids_eq, ← hdrawn.uuidCount_eq] at hc hr
  rw [replace_refused hc hr]
  rfl

/-- A search that loads no recent key ends as its renewal does. -/
theorem bestKey_of_failed {ring ring' : Keyring} {m m' : Machine} {fault : Fault}
    (hnone : findRecent ring.keys m.clock.now = none)
    (hren : ring.renew.run (m.answer .now).2 = ((.error fault, ring'), m')) :
    ring.bestKey.run m = ((.error fault, ring'), m') := by
  have hsearch := bestKey_run ring m
  generalize ring.bestKey.run m = r at hsearch ⊢
  cases hsearch with
  | loaded hk =>
    rw [hnone] at hk
    cases hk
  | failed _ hren' =>
    rw [hren] at hren'
    cases hren'
    rfl
  | found _ hren' hk =>
    rw [hren] at hren'
    cases hren'
  | missed _ hren' hk =>
    rw [hren] at hren'
    cases hren'

theorem bestKey_of_added {ring ring' : Keyring} {m m' : Machine} {k : Key}
    (hnone : findRecent ring.keys m.clock.now = none)
    (hren : ring.renew.run (m.answer .now).2 = ((.ok (), ring'), m'))
    (hk : findRecent ring'.keys m'.clock.now = some k) :
    ring.bestKey.run m = ((.ok k.id, ring'), (m'.answer .now).2) := by
  have hsearch := bestKey_run ring m
  generalize ring.bestKey.run m = r at hsearch ⊢
  cases hsearch with
  | loaded hk' =>
    rw [hnone] at hk'
    cases hk'
  | failed _ hren' =>
    rw [hren] at hren'
    cases hren'
  | found _ hren' hk' =>
    rw [hren] at hren'
    cases hren'
    rw [hk] at hk'
    cases hk'
    rfl
  | missed _ hren' hk' =>
    rw [hren] at hren'
    cases hren'
    rw [hk] at hk'
    cases hk'

end Keyring

/-! ### An empty directory -/

/-- A place whose directory stands and is empty, on a machine that nobody else changes, whose clock
stands still and whose random source yields a key. -/
structure Place.IsVacant (place : Place) (d : Location) (now : Instant) (m : Machine) : Prop where
  valid : Context.isValid place.context = true
  undisturbed : m.Undisturbed
  steady : m.clock.IsSteady now
  not_earliest : Instant.earliest < now.toInt
  stands : ∃ mode, m.files.entryAt m.cwd place.directory = .ok (.directory mode)
  walk_eq : m.files.walk (place.directory.start m.cwd) place.directory.names = .ok d
  empty : ∀ name, m.files.lookup (d ++ [name]) = none
  key_drawn : ∃ key, ((freshKey [] now).run m).1 = .ok key

/-- The names of the temporary files are short enough, and so are their paths. -/
def Place.TemporaryFits (place : Place) : Prop :=
  FileTree.byteLength place.context ≤ 214 ∧
    FileTree.byteLength place.file.text + 41 < FileTree.pathLimit

/-- The name of the marker is short enough, and so is its path. -/
def Place.MarkerFits (place : Place) : Prop :=
  FileTree.byteLength place.context ≤ 250 ∧
    FileTree.byteLength place.file.text + 5 < FileTree.pathLimit

namespace Place

theorem TemporaryFits.markerFits {place : Place} (h : place.TemporaryFits) : place.MarkerFits := by
  unfold TemporaryFits MarkerFits at *
  omega

end Place

namespace Place.IsVacant

variable {place : Place} {d : Location} {now : Instant} {m : Machine}
  (h : place.IsVacant d now m) (policy : LockPolicy)
include h

theorem answer_now : place.IsVacant d now (m.answer .now).2 where
  valid := h.valid
  undisturbed := h.undisturbed.answer .now
  steady := h.steady.answer .now
  not_earliest := h.not_earliest
  stands := h.stands
  walk_eq := h.walk_eq
  empty := h.empty
  key_drawn := by
    have hsame : ((freshKey [] now).run (m.answer .now).2).1 = ((freshKey [] now).run m).1 :=
      freshKey_congr [] now rfl
    rw [hsame]
    exact h.key_drawn

theorem directory_no_nul : '\x00' ∉ place.directory.text :=
  (FileTree.walk_of_directory h.stands.choose_spec).1.no_nul

theorem opened_isOf (keys : List Key) :
    (place.opened policy keys).IsOf place.directory place.context :=
  Place.opened_isOf h.valid policy keys

/-- A name in the directory leads to a free place, or it is too long. -/
theorem reaches {name : List Char} (hn : IsName name)
    (hname : FileTree.byteLength name ≤ FileTree.nameLimit)
    (hpath : FileTree.byteLength (place.directory.join ⟨name⟩).text < FileTree.pathLimit) :
    m.files.locate m.cwd (place.directory.join ⟨name⟩) = .ok (.name (d ++ [name])) :=
  FileTree.locate_join_eq_ok hn h.directory_no_nul h.walk_eq hname hpath

/-- There are no keys in an empty directory. -/
theorem saved_eq_nil (t : Instant) : Keyring.saved m.files m.cwd place.file t = [] := by
  have hnone : m.files.contents m.cwd place.file = [] := by
    have hn := Place.isName h.valid
    rcases FileTree.locate_join_cases m.files m.cwd place.directory hn with ⟨e, he⟩ | ⟨d', hd', hl⟩
    · simp only [FileTree.contents, FileTree.read, FileTree.entryAt, Place.file, he]
      rfl
    · rw [h.walk_eq] at hd'
      cases hd'
      rw [Place.file, FileTree.contents_of_lookup (Path.endsInSeparator_join _ hn) hl, h.empty]
  rw [Keyring.saved, hnone, KeyFile.parse_nil]

/-- Opening loads no key and makes no directory. -/
theorem openFor_run {resolver : HomeResolver} {options : KeyringOptions}
    {user : Option (List Char)} (hhome : resolver user = .ok place.home)
    (hsubdir : options.subdir = place.subdir) :
    (Keyring.openFor resolver options user place.context).run m =
      (.ok (place.opened options.policy []), (m.answer .now).2) := by
  have hdir : place.home.join options.subdir = place.directory := by
    rw [hsubdir]
    rfl
  have hnone : Keyring.saved m.files m.cwd
      (Keyring.inDirectory place.directory place.context options.policy).file m.clock.now = [] :=
    h.saved_eq_nil m.clock.now
  simp only [Keyring.openFor, hhome, h.valid, if_true, Routine.bind_eq, Routine.run_bind,
    Keyring.openIn_run, hdir, hnone]
  cases hm : m.files.makeDirectory m.cwd
      (Keyring.inDirectory place.directory place.context options.policy).directory
      privateDirectoryMode with
  | ok u => exact absurd hm (FileTree.makeDirectory_ne_ok h.walk_eq _)
  | error e => rfl

/-! ### Three lengths -/

theorem length_marker : FileTree.byteLength (place.opened policy []).marker.text =
    FileTree.byteLength place.file.text + 5 := by
  rw [(h.opened_isOf policy []).byteLength_marker]
  rfl

/-- If a marker can stand in the directory the lock is taken at once. -/
theorem acquire_run (hfits : place.MarkerFits) :
    ∃ l, Lock.Room (place.opened policy []).marker m.cwd l m.files m.files ∧
      (Lock.acquire (place.opened policy []).marker policy).run m =
        (.ok ⟨(place.opened policy []).marker⟩,
          { m with files := m.files.insert l (.file privateFileMode []) }) := by
  have hof := h.opened_isOf policy []
  have hl : m.files.locate m.cwd (place.opened policy []).marker =
      .ok (.name (d ++ [place.context ++ Keyring.markerEnding])) := by
    rw [hof.marker_join]
    refine h.reaches hof.isName_marker ?_ ?_
    · rw [FileTree.byteLength_append, Keyring.byteLength_markerEnding]
      exact Nat.add_le_of_le_sub (by decide) hfits.1
    · rw [← hof.marker_join, h.length_marker policy]
      exact hfits.2
  have hfree := h.empty (place.context ++ Keyring.markerEnding)
  exact ⟨_, ⟨hl, hfree, Or.inl rfl⟩, Lock.acquire_free policy
    ⟨FileTree.reaches_iff.mpr ⟨hof.marker_endsInSeparator, hl⟩, hfree⟩⟩

/-- Otherwise it is never taken, and no file changes. -/
theorem renew_stuck (hlong : ¬ place.MarkerFits) :
    ∃ m', (place.opened policy []).renew.run m =
        ((.error (.failed (.notLocked (.markerStuck (place.opened policy []).marker .nameTooLong))),
          place.opened policy []), m') ∧
      m'.files = m.files ∧
      m'.sleeps = List.replicate policy.maxTimeouts policy.timeout ++ m.sleeps := by
  have hof := h.opened_isOf policy []
  have hunfit : ¬ (FileTree.byteLength (place.context ++ Keyring.markerEnding) ≤
        FileTree.nameLimit ∧
      FileTree.byteLength (place.directory.join ⟨place.context ++ Keyring.markerEnding⟩).text <
        FileTree.pathLimit) := by
    rw [← hof.marker_join, h.length_marker policy, FileTree.byteLength_append,
      Keyring.byteLength_markerEnding]
    unfold Place.MarkerFits at hlong
    unfold FileTree.nameLimit
    omega
  have hcreate := (FileTree.locate_join_of_long hof.isName_marker h.directory_no_nul h.walk_eq
    hunfit).2 privateFileMode
  have hremove := FileTree.remove_join_of_long hof.isName_marker h.directory_no_nul h.walk_eq
    hunfit
  rw [← hof.marker_join] at hcreate hremove
  obtain ⟨m', hrun, hfiles, hsleeps⟩ := Lock.acquire_stuck policy
    h.answer_now.undisturbed.others_eq hcreate hremove
  refine ⟨m', ?_, hfiles, hsleeps⟩
  have hren := Keyring.renew_run (place.opened policy []) m
  generalize (place.opened policy []).renew.run m = r at hren ⊢
  have hpolicy : (place.opened policy []).policy = policy := rfl
  cases hren with
  | refused hlock =>
    rw [hpolicy, hrun] at hlock
    cases hlock
    rfl
  | failed hlock hext =>
    rw [hpolicy, hrun] at hlock
    cases hlock
  | added hlock hext =>
    rw [hpolicy, hrun] at hlock
    cases hlock

/-- A lock that was taken in the directory. -/
theorem exists_locked (hfits : place.MarkerFits) :
    ∃ locked l key,
      (Lock.acquire (place.opened policy []).marker policy).run (m.answer .now).2 =
        (.ok ⟨(place.opened policy []).marker⟩, locked) ∧
      locked.cwd = m.cwd ∧ locked.random.Quiet ∧
      Lock.Room (place.opened policy []).marker m.cwd l m.files m.files ∧
      locked.files = m.files.insert l (.file privateFileMode []) ∧
      Keyring.saved locked.files m.cwd place.file now = [] ∧
      ((freshKey (Keyring.saved locked.files locked.cwd (place.opened policy []).file m.clock.now)
        m.clock.now).run locked).1 = .ok key := by
  obtain ⟨l, hroom, hrun⟩ := h.answer_now.acquire_run policy hfits
  obtain ⟨key, hkey⟩ := h.key_drawn
  have hsaved : Keyring.saved (m.files.insert l (.file privateFileMode [])) m.cwd place.file now =
      Keyring.saved m.files m.cwd place.file now :=
    (h.opened_isOf policy []).saved_of_room hroom privateFileMode now
  have hnil := hsaved.trans (h.saved_eq_nil now)
  refine ⟨_, l, key, hrun, rfl, h.undisturbed.quiet, hroom, rfl, hnil, ?_⟩
  rw [← hkey, h.steady.now_eq]
  exact hnil.symm ▸ freshKey_congr [] now rfl

/-- If a marker can stand in the directory but no temporary file, the file is not replaced, and
what was changed to take the lock is changed back. -/
theorem renew_refused (hfits : place.MarkerFits) (hlong : ¬ place.TemporaryFits) :
    ∃ m', (place.opened policy []).renew.run m =
        ((.error (.file .nameTooLong), place.opened policy []), m') ∧ m'.files = m.files := by
  have hof := h.opened_isOf policy []
  obtain ⟨locked, l, key, hrun, hcwd, hquiet, hroom, hfiles, -, hkey⟩ :=
    h.exists_locked policy hfits
  have htmp := hof.temporary_join (locked.uuids locked.uuidCount)
  have hunfit : ¬ (FileTree.byteLength (place.context ++
        Keyring.temporaryEnding (locked.uuids locked.uuidCount)) ≤ FileTree.nameLimit ∧
      FileTree.byteLength (place.directory.join ⟨place.context ++
        Keyring.temporaryEnding (locked.uuids locked.uuidCount)⟩).text < FileTree.pathLimit) := by
    have hfile : (place.opened policy []).file.text = place.file.text := rfl
    rw [← htmp, hof.byteLength_temporary, FileTree.byteLength_append,
      Keyring.byteLength_temporaryEnding, hfile]
    unfold Place.TemporaryFits at hlong
    unfold FileTree.nameLimit
    omega
  have hsame := FileTree.sameDirectories_insert (FileTree.not_hasDirectory_of_none hroom.free)
    privateFileMode []
  rw [← hfiles] at hsame
  have hwalk := hsame.walk_eq_ok_iff.mp h.walk_eq
  have hcreate := (FileTree.locate_join_of_long (hof.isName_temporary _) h.directory_no_nul hwalk
    hunfit).2 privateFileMode
  have hremove := FileTree.remove_join_of_long (hof.isName_temporary _) h.directory_no_nul hwalk
    hunfit
  have hspot := (FileTree.locate_join_of_long (hof.isName_temporary _) h.directory_no_nul h.walk_eq
    hunfit).1
  rw [← htmp, ← hcwd] at hcreate hremove
  rw [← htmp] at hspot
  have hext := Keyring.extendFile_refused hquiet hcreate hremove hkey
  have hren := Keyring.renew_run (place.opened policy []) m
  have hpolicy : (place.opened policy []).policy = policy := rfl
  generalize (place.opened policy []).renew.run m = r at hren ⊢
  cases hren with
  | refused hlock =>
    rw [hpolicy, hrun] at hlock
    cases hlock
  | added hlock hext' =>
    rw [hpolicy, hrun] at hlock
    cases hlock
    rw [hext'] at hext
    cases hext
  | failed hlock hext' =>
    rw [hpolicy, hrun] at hlock
    cases hlock
    obtain ⟨-, hspared⟩ := Keyring.release_of_failed hof hcwd hroom hfiles hquiet hext'
    rw [hext'] at hext
    cases hext
    refine ⟨_, rfl, ?_⟩
    rcases hspared with hsame | ⟨n, mode, bytes, hn, -⟩
    · exact hsame
    · rw [hspot] at hn
      cases hn

/-- If a temporary file can stand in the directory too, the first key is saved, and that is all. -/
theorem renew_saves (hfits : place.TemporaryFits) :
    ∃ key m', key.created = now ∧
      (place.opened policy []).renew.run m = ((.ok (), place.opened policy [key]), m') ∧
      m'.files = m.files.insert (d ++ [place.context])
        (.file privateFileMode (KeyFile.serialize [key])) := by
  have hof := h.opened_isOf policy []
  obtain ⟨locked, l, key, hrun, hcwd, hquiet, hroom, hfiles, hsaved, hkey⟩ :=
    h.exists_locked policy hfits.markerFits
  have hk := h.reaches hof.isName (Nat.le_trans hfits.1 (by decide))
    (Nat.lt_of_le_of_lt (Nat.le_add_right _ 41) hfits.2)
  have hn : m.files.locate m.cwd (Keyring.temporaryFor (place.opened policy []).file
      (locked.uuids locked.uuidCount)) = .ok (.name (d ++
        [place.context ++ Keyring.temporaryEnding (locked.uuids locked.uuidCount)])) := by
    rw [hof.temporary_join]
    refine h.reaches (hof.isName_temporary _) ?_ ?_
    · rw [FileTree.byteLength_append, Keyring.byteLength_temporaryEnding]
      exact Nat.add_le_of_le_sub (by decide) hfits.1
    · rw [← hof.temporary_join, hof.byteLength_temporary]
      exact hfits.2
  have hsame := FileTree.sameDirectories_insert (FileTree.not_hasDirectory_of_none hroom.free)
    privateFileMode []
  rw [← hfiles] at hsame
  have hplain : ¬ locked.files.HasDirectory (d ++ [place.context]) := fun hd =>
    FileTree.not_hasDirectory_of_none (h.empty place.context) ((hsame _).mpr hd)
  have hfree : locked.files.lookup (d ++
      [place.context ++ Keyring.temporaryEnding (locked.uuids locked.uuidCount)]) = none := by
    rw [hfiles, FileTree.lookup_insert_of_ne _
      (hof.marker_ne_temporary hroom.locate_eq hn).symm, h.empty]
  have hext := Keyring.extendFile_succeeds hof.file_endsInSeparator
    (hof.temporary_endsInSeparator _) (hcwd ▸ hsame.locate_eq_ok hk) hplain
    (hcwd ▸ hsame.locate_eq_ok hn) hfree hquiet hkey
  have hren := Keyring.renew_run (place.opened policy []) m
  have hpolicy : (place.opened policy []).policy = policy := rfl
  generalize (place.opened policy []).renew.run m = r at hren ⊢
  cases hren with
  | refused hlock =>
    rw [hpolicy, hrun] at hlock
    cases hlock
  | failed hlock hext' =>
    rw [hpolicy, hrun] at hlock
    cases hlock
    rw [hext'] at hext
    cases hext
  | added hlock hext' =>
    rw [hpolicy, hrun] at hlock
    cases hlock
    obtain ⟨-, made, hmade, rfl, k, n, hk', -, -, -, hfinal⟩ :=
      Keyring.release_of_added hof hcwd hroom hfiles hquiet hext'
    rw [h.steady.now_eq] at hmade hfinal ⊢
    have hnil : Keyring.saved locked.files m.cwd (place.opened policy []).file now = [] := hsaved
    rw [hnil] at hmade hfinal ⊢
    refine ⟨made, _, ((freshKey_run _ _ _).2 made hmade).created_eq, rfl, ?_⟩
    rw [hfinal]
    rw [hof.file_eq, hk] at hk'
    cases hk'
    rfl

/-! ### The first search -/

theorem bestKey_stuck (hlong : ¬ place.MarkerFits) :
    ∃ m', (place.opened policy []).bestKey.run m =
        ((.error (.failed (.notLocked (.markerStuck (place.opened policy []).marker .nameTooLong))),
          place.opened policy []), m') ∧
      m'.files = m.files ∧
      m'.sleeps = List.replicate policy.maxTimeouts policy.timeout ++ m.sleeps := by
  obtain ⟨m', hren, hleft⟩ := h.answer_now.renew_stuck policy hlong
  exact ⟨m', Keyring.bestKey_of_failed rfl hren, hleft⟩

theorem bestKey_refused (hfits : place.MarkerFits) (hlong : ¬ place.TemporaryFits) :
    ∃ m', (place.opened policy []).bestKey.run m =
        ((.error (.file .nameTooLong), place.opened policy []), m') ∧ m'.files = m.files := by
  obtain ⟨m', hren, hleft⟩ := h.answer_now.renew_refused policy hfits hlong
  exact ⟨m', Keyring.bestKey_of_failed rfl hren, hleft⟩

/-- The key that is saved is recent, as the clock stands still. -/
theorem bestKey_saves (hfits : place.TemporaryFits) :
    ∃ key m', (place.opened policy []).bestKey.run m =
        ((.ok key.id, place.opened policy [key]), m') ∧
      m'.files = m.files.insert (d ++ [place.context])
        (.file privateFileMode (KeyFile.serialize [key])) := by
  obtain ⟨key, m', hcreated, hren, hfiles⟩ := h.answer_now.renew_saves policy hfits
  have hsteady := h.answer_now.steady.run (place.opened policy []).renew
  rw [hren] at hsteady
  have hrecent : key.isRecent m'.clock.now = true := by
    have hearliest := h.not_earliest
    rw [hsteady.now_eq, Key.isRecent_iff, hcreated]
    unfold recentFor
    omega
  have hfound : findRecent (place.opened policy [key]).keys m'.clock.now = some key := by
    simp [findRecent, Place.opened, hrecent]
  exact ⟨key, _, Keyring.bestKey_of_added rfl hren hfound, hfiles⟩

end Place.IsVacant

/-- In an empty directory opening succeeds and loads no key. The search for a key saves one if its
temporary file fits, and then the file is the one new entry; if only the marker fits it fails to
write the file, and otherwise to take the lock, after all sleeps that the policy allows. Where it
fails the directory stays empty and no key is loaded. -/
theorem first_key_by_length {place : Place} {d : Location} {now : Instant} {m : Machine}
    {resolver : HomeResolver} {options : KeyringOptions} {user : Option (List Char)}
    (hhome : resolver user = .ok place.home) (hsubdir : options.subdir = place.subdir)
    (h : place.IsVacant d now m) :
    ∃ m₁, (Keyring.openFor resolver options user place.context).run m =
        (.ok (place.opened options.policy []), m₁) ∧ m₁.files = m.files ∧
      (place.TemporaryFits → ∃ key m', (place.opened options.policy []).bestKey.run m₁ =
          ((.ok key.id, place.opened options.policy [key]), m') ∧
        ∀ l, m'.files.lookup l = if l = d ++ [place.context] then
          some (.file 0o600 (KeyFile.serialize [key])) else m.files.lookup l) ∧
      (place.MarkerFits → ¬ place.TemporaryFits →
        ∃ m', (place.opened options.policy []).bestKey.run m₁ =
          ((.error (.file .nameTooLong), place.opened options.policy []), m') ∧
        m'.files = m.files) ∧
      (¬ place.MarkerFits →
        ∃ m', (place.opened options.policy []).bestKey.run m₁ =
          ((.error (.failed (.notLocked (.markerStuck (place.opened options.policy []).marker
            .nameTooLong))), place.opened options.policy []), m') ∧
        m'.files = m.files ∧ m'.sleeps =
          List.replicate options.policy.maxTimeouts options.policy.timeout ++ m.sleeps) := by
  refine ⟨(m.answer .now).2, h.openFor_run hhome hsubdir, rfl, fun hfits => ?_,
    fun hfits hlong => h.answer_now.bestKey_refused options.policy hfits hlong,
    fun hlong => h.answer_now.bestKey_stuck options.policy hlong⟩
  obtain ⟨key, m', hrun, hfiles⟩ :=
    h.answer_now.bestKey_saves options.policy hfits
  refine ⟨key, m', hrun, fun l => ?_⟩
  rw [hfiles]
  split_ifs with hl
  · rw [hl, FileTree.lookup_insert_self _ (by simp)]
    rfl
  · exact FileTree.lookup_insert_of_ne _ hl _

def lengthPlace (n : Nat) : Place := ⟨⟨['/', 'h']⟩, ⟨['k']⟩, List.replicate n 'c'⟩

def vacantMachine : Machine :=
  Keyring.sampleMachine [([['h']], .directory 0o755), ([['h'], ['k']], .directory 0o700)] id

theorem lengthPlace_isVacant {n : Nat} (hv : Context.isValid (List.replicate n 'c') = true) :
    (lengthPlace n).IsVacant [['h'], ['k']] 1000 vacantMachine := by
  have hdir : (lengthPlace n).directory = ⟨['/', 'h', '/', 'k']⟩ := rfl
  refine ⟨hv, ⟨fun _ _ => rfl, fun d hd => absurd hd List.not_mem_nil, fun _ => rfl⟩,
    ⟨rfl, fun _ => rfl, rfl⟩, by decide, ⟨0o700, ?_⟩, ?_, fun name => ?_, ⟨_, rfl⟩⟩
  · rw [hdir]
    decide +kernel
  · rw [hdir]
    decide +kernel
  · simp [vacantMachine, Keyring.sampleMachine, FileTree.lookup, FileTree.find]

def lengthHome : HomeResolver := HomeResolver.fixed ⟨['/', 'h']⟩

def lengthOptions : KeyringOptions := { subdir := ⟨['k']⟩ }

/-- The longest context that can be saved, one byte more, and one byte more than a marker can
have. -/
theorem first_key_by_length_sample :
    (∃ m₁ m' key, (Keyring.openFor lengthHome lengthOptions none (lengthPlace 214).context).run
        vacantMachine = (.ok ((lengthPlace 214).opened LockPolicy.standard []), m₁) ∧
      ((lengthPlace 214).opened LockPolicy.standard []).bestKey.run m₁ =
        ((.ok key.id, (lengthPlace 214).opened LockPolicy.standard [key]), m')) ∧
    (∃ m₁ m', (Keyring.openFor lengthHome lengthOptions none (lengthPlace 215).context).run
        vacantMachine = (.ok ((lengthPlace 215).opened LockPolicy.standard []), m₁) ∧
      ((lengthPlace 215).opened LockPolicy.standard []).bestKey.run m₁ =
        ((.error (.file .nameTooLong), (lengthPlace 215).opened LockPolicy.standard []), m')) ∧
    ∃ m₁ m', (Keyring.openFor lengthHome lengthOptions none (lengthPlace 251).context).run
        vacantMachine = (.ok ((lengthPlace 251).opened LockPolicy.standard []), m₁) ∧
      ((lengthPlace 251).opened LockPolicy.standard []).bestKey.run m₁ =
        ((.error (.failed (.notLocked (.markerStuck
          ((lengthPlace 251).opened LockPolicy.standard []).marker .nameTooLong))),
          (lengthPlace 251).opened LockPolicy.standard []), m') ∧
      m'.sleeps = List.replicate 32 (Duration.ofMillis 250) := by
  have hhome : ∀ n, lengthHome none = .ok (lengthPlace n).home := fun _ => rfl
  have hsubdir : ∀ n, lengthOptions.subdir = (lengthPlace n).subdir := fun _ => rfl
  refine ⟨?_, ?_, ?_⟩
  · obtain ⟨m₁, hopen, -, hsaves, -, -⟩ := first_key_by_length (hhome 214) (hsubdir 214)
      (lengthPlace_isVacant (by decide +kernel))
    obtain ⟨key, m', hrun, -⟩ := hsaves ⟨by decide +kernel, by decide +kernel⟩
    exact ⟨m₁, m', key, hopen, hrun⟩
  · obtain ⟨m₁, hopen, -, -, hrefused, -⟩ := first_key_by_length (hhome 215) (hsubdir 215)
      (lengthPlace_isVacant (by decide +kernel))
    obtain ⟨m', hrun, -⟩ := hrefused ⟨by decide +kernel, by decide +kernel⟩
      fun hfits => absurd hfits.1 (by decide +kernel)
    exact ⟨m₁, m', hopen, hrun⟩
  · obtain ⟨m₁, hopen, -, -, -, hstuck⟩ := first_key_by_length (hhome 251) (hsubdir 251)
      (lengthPlace_isVacant (by decide +kernel))
    obtain ⟨m', hrun, -, hsleeps⟩ := hstuck fun hfits => absurd hfits.1 (by decide +kernel)
    exact ⟨m₁, m', hopen, hrun, hsleeps⟩

/-- Where no marker fits, no search after opening succeeds. -/
theorem Place.IsVacant.search_fails {place : Place} {d : Location} {now : Instant}
    {m m₁ : Machine} {resolver : HomeResolver} {options : KeyringOptions}
    {user : Option (List Char)} {ring : Keyring} {id : Int32} (h : place.IsVacant d now m)
    (hhome : resolver user = .ok place.home) (hsubdir : options.subdir = place.subdir)
    (hlong : ¬ place.MarkerFits)
    (hopen : (Keyring.openFor resolver options user place.context).run m = (.ok ring, m₁)) :
    (ring.bestKey.run m₁).1.1 ≠ .ok id := by
  rw [h.openFor_run hhome hsubdir] at hopen
  cases hopen
  obtain ⟨m', hrun, -⟩ := h.answer_now.bestKey_stuck options.policy hlong
  rw [hrun]
  exact fun hok => by cases hok

def deepPlace : Place := ⟨⟨['/']⟩, ⟨'h' :: List.replicate 4093 '/'⟩, ['c']⟩

theorem deepPlace_isVacant : deepPlace.IsVacant [['h']] 1000 Keyring.plainMachine where
  valid := by decide
  undisturbed := Keyring.plainMachine_ready.undisturbed
  steady := ⟨rfl, fun _ => rfl, rfl⟩
  not_earliest := by decide
  stands := ⟨0o700, by decide +kernel⟩
  walk_eq := by decide +kernel
  empty name := by
    simp [Keyring.plainMachine, Keyring.sampleMachine, FileTree.lookup, FileTree.find]
  key_drawn := ⟨_, rfl⟩

/-- Without a limit on the path, a context of at most 214 bytes is not enough. -/
theorem first_key_limited : ¬ ∀ (place : Place) (d : Location) (now : Instant) (m : Machine)
    (resolver : HomeResolver) (options : KeyringOptions) (user : Option (List Char)),
    resolver user = .ok place.home → options.subdir = place.subdir → place.IsVacant d now m →
    FileTree.byteLength place.context ≤ 214 →
    ∃ ring m₁ id, (Keyring.openFor resolver options user place.context).run m = (.ok ring, m₁) ∧
      (ring.bestKey.run m₁).1.1 = .ok id := by
  intro hall
  have hhome : HomeResolver.fixed ⟨['/']⟩ none = .ok deepPlace.home := rfl
  have hsubdir : KeyringOptions.subdir { subdir := deepPlace.subdir } = deepPlace.subdir := rfl
  obtain ⟨ring, m₁, id, hopen, hok⟩ := hall deepPlace [['h']] 1000 Keyring.plainMachine _ _ none
    hhome hsubdir deepPlace_isVacant (by decide)
  have hlong : ¬ deepPlace.MarkerFits := fun hfits => absurd hfits.2 (by decide +kernel)
  exact deepPlace_isVacant.search_fails hhome hsubdir hlong hopen hok

end Keyrings
