import Keyrings.Proofs.Footprint
import Keyrings.Proofs.Stages

/-! What a renewal needs to succeed. The directory has to be there and no directory in the place of
the file or the marker; the paths have to be short enough, of which that of the temporary file is
the longest; the random source has to give an identifier and a secret. Whatever else stands in the
directory does not matter: a marker is waited for and broken. -/

namespace Keyrings

namespace FileTree

/-! ### Lengths -/

theorem byteLength_append (xs ys : List Char) :
    byteLength (xs ++ ys) = byteLength xs + byteLength ys := by
  induction xs with
  | nil => simp [byteLength]
  | cons x xs ih =>
    rw [List.cons_append, byteLength, byteLength, ih]
    omega

theorem byteLength_eq_length {xs : List Char} (h : ∀ c ∈ xs, c.utf8Size = 1) :
    byteLength xs = xs.length := by
  induction xs with
  | nil => rfl
  | cons x xs ih =>
    have hx := h x List.mem_cons_self
    have hxs := ih fun c hc => h c (List.mem_cons_of_mem x hc)
    rw [byteLength, hx, hxs, List.length_cons]
    omega

variable {t : FileTree} {cwd : Location} {p : Path}

/-- No operation goes along a path that is too long. -/
theorem approach_of_long (hnul : '\x00' ∉ p.text) (hlong : pathLimit ≤ byteLength p.text) :
    t.approach cwd p = .error .nameTooLong := by
  have hne : p.text.isEmpty = false := by
    rw [List.isEmpty_eq_false_iff]
    intro hnil
    rw [hnil] at hlong
    exact absurd hlong (by decide)
  simp only [approach, List.contains_iff_mem, hnul, hne, hlong, Bool.false_eq_true, if_true,
    if_false]

theorem entryAt_of_long (hnul : '\x00' ∉ p.text) (hlong : pathLimit ≤ byteLength p.text) :
    t.entryAt cwd p = .error .nameTooLong := by
  simp only [entryAt, locate, approach_of_long hnul hlong]

/-! ### Places below a directory -/

theorem approach_of_locate {l : Location} (h : t.locate cwd p = .ok (.directory l)) :
    t.approach cwd p = .ok (.directory l) := by
  unfold locate at h
  cases ha : t.approach cwd p with
  | error e => simp [ha] at h
  | ok s =>
    cases s with
    | directory k => simpa [ha] using h
    | name k =>
      simp only [ha] at h
      split_ifs at h
      cases h

/-- A directory can be walked to. -/
theorem walk_of_directory {mode : Mode} (h : t.entryAt cwd p = .ok (.directory mode)) :
    p.IsUsable ∧ ∃ d, t.walk (p.start cwd) p.names = .ok d := by
  unfold entryAt at h
  cases hl : t.locate cwd p with
  | error e =>
    rw [hl] at h
    contradiction
  | ok s =>
    cases s with
    | directory l =>
      obtain ⟨husable, hleads⟩ := approach_eq_ok.mp (approach_of_locate hl)
      cases hleads with
      | start hn => exact ⟨husable, _, by rw [hn]; rfl⟩
      | dots hn hdots hw => exact ⟨husable, _, hw⟩
    | name l =>
      obtain ⟨husable, hleads, hshort⟩ := locate_eq_ok_name.mp hl
      refine ⟨husable, l, ?_⟩
      cases hleads with
      | @name front last d hn hdots hw =>
        rw [hn]
        refine walk_append_eq_ok.mpr ⟨d, hw, (walk_singleton hdots).mpr ⟨?_, ?_, rfl⟩⟩
        · simpa [isTooLong] using hshort
        · simp only [hl] at h
          cases hlook : t.lookup (d ++ [last]) with
          | none => simp [hlook] at h
          | some e =>
            cases e with
            | directory mode' => exact ⟨mode', hlook⟩
            | file mode' bytes =>
              simp only [hlook] at h
              split_ifs at h
              cases h

/-- A name that is short enough has a place in a directory that can be walked to. -/
theorem locate_join_eq_ok {dir : Path} {name : List Char} {d : Location} (hn : IsName name)
    (hdir : '\x00' ∉ dir.text) (hw : t.walk (dir.start cwd) dir.names = .ok d)
    (hname : byteLength name ≤ nameLimit)
    (hpath : byteLength (dir.join ⟨name⟩).text < pathLimit) :
    t.locate cwd (dir.join ⟨name⟩) = .ok (.name (d ++ [name])) := by
  refine locate_eq_ok_name.mpr ⟨⟨?_, ?_, hpath⟩, ?_, ?_⟩
  · rw [Path.text_join dir hn, Path.stem]
    split_ifs
    · simp [hdir, hn.no_nul]
    · simp [hdir, hn.no_nul]
  · rw [Path.text_join dir hn]
    simp [hn.ne_nil]
  · refine .name (Path.names_join dir hn) (not_or.mpr ⟨hn.ne_dot, hn.ne_dots⟩) ?_
    rwa [Path.start, Path.isAbsolute_join dir hn]
  · simpa [isTooLong] using hname

/-! ### Places that are taken or free -/

theorem not_hasDirectory_of_entryAt {l : Location} (hl : t.locate cwd p = .ok (.name l))
    (h : ∀ mode, t.entryAt cwd p ≠ .ok (.directory mode)) : ¬ t.HasDirectory l := by
  rintro ⟨mode, hlook⟩
  exact h mode (by simp [entryAt, hl, hlook])

theorem lookup_eq_none_of_entryAt (hsep : p.endsInSeparator = false) {l : Location}
    (hl : t.locate cwd p = .ok (.name l)) (h : ∀ e, t.entryAt cwd p ≠ .ok e) :
    t.lookup l = none := by
  cases hlook : t.lookup l with
  | none => rfl
  | some e =>
    refine absurd ?_ (h e)
    cases e with
    | directory mode => simp [entryAt, hl, hlook]
    | file mode bytes => exact entryAt_of_file hsep hl hlook

end FileTree

/-! ### Lengths of endings -/

namespace Keyring

theorem byteLength_markerEnding : FileTree.byteLength markerEnding = 5 := rfl

theorem byteLength_temporaryEnding (u : Uuid) : FileTree.byteLength (temporaryEnding u) = 41 := by
  have hdigit : ∀ d ∈ List.range 16, (Hex.digit d).utf8Size = 1 := by decide
  have htext : ∀ c ∈ u.text, c.utf8Size = 1 := by
    intro c hc
    rcases Uuid.mem_text hc with rfl | ⟨d, hd, rfl⟩
    · rfl
    · exact hdigit d (List.mem_range.mpr hd)
  rw [temporaryEnding, FileTree.byteLength_append, FileTree.byteLength_eq_length htext,
    Uuid.length_text]
  rfl

variable {ring : Keyring} {directory : Path} {context : List Char}

theorem IsOf.byteLength_marker (h : ring.IsOf directory context) :
    FileTree.byteLength ring.marker.text = FileTree.byteLength ring.file.text + 5 := by
  rw [h.marker_eq, Path.extend, FileTree.byteLength_append, byteLength_markerEnding]

theorem IsOf.byteLength_temporary (h : ring.IsOf directory context) (u : Uuid) :
    FileTree.byteLength (temporaryFor ring.file u).text =
      FileTree.byteLength ring.file.text + 41 := by
  rw [h.temporary_eq, Path.extend, FileTree.byteLength_append, byteLength_temporaryEnding]

end Keyring

/-! ### Requests that succeed -/

namespace Lock

variable {marker : Path} {l : Location}

/-- A marker can be replaced wherever it can stand. -/
theorem seize_succeeds (hsep : marker.endsInSeparator = false) {m : Machine}
    (hl : m.files.locate m.cwd marker = .ok (.name l)) (hplain : ¬ m.files.HasDirectory l) :
    ((seize marker).run m).1 = .ok ⟨marker⟩ := by
  simp only [seize, Routine.request, Routine.bind_eq, Routine.ask_bind, Routine.done_bind,
    Routine.run_ask, Machine.answer]
  cases hr : m.files.remove m.cwd marker with
  | ok u =>
    obtain ⟨_, _, _, hc⟩ := FileTree.create_of_remove hsep hr privateFileMode
    simp only [Machine.change_ok, hc]
    rfl
  | error e =>
    have hnone : m.files.lookup l = none := by
      cases hlook : m.files.lookup l with
      | none => rfl
      | some entry =>
        cases entry with
        | directory mode => exact absurd ⟨mode, hlook⟩ hplain
        | file mode bytes =>
          rw [(FileTree.remove_eq_ok hsep).mpr ⟨l, mode, bytes, hl, hlook, rfl⟩] at hr
          contradiction
    have hc : m.files.create m.cwd marker privateFileMode = .ok _ :=
      (FileTree.create_eq_ok hsep).mpr ⟨l, hl, hnone, rfl⟩
    simp only [Machine.change_error, hc, Machine.change_ok]
    rfl

/-- By induction on the attempts: each makes the marker or is followed by another one, and at last
it is replaced. -/
theorem attempt_succeeds (hsep : marker.endsInSeparator = false) (timeout : Duration) (n : Nat)
    {m : Machine} (hothers : ∀ i t, m.others i t = t)
    (hl : m.files.locate m.cwd marker = .ok (.name l)) (hplain : ¬ m.files.HasDirectory l) :
    ((attempt marker timeout n).run m).1 = .ok ⟨marker⟩ := by
  induction n generalizing m with
  | zero => exact seize_succeeds hsep hl hplain
  | succ n ih =>
    simp only [attempt, Routine.request, Routine.bind_eq, Routine.ask_bind, Routine.done_bind,
      Routine.run_ask]
    cases hc : m.files.create m.cwd marker privateFileMode with
    | ok u =>
      simp only [Machine.answer, hc, Machine.change_ok]
      rfl
    | error e =>
      have hanswer : m.answer (.create marker privateFileMode) = (.error e, m) := by
        simp only [Machine.answer, hc, Machine.change_error]
      have hfiles : (m.answer (.sleep timeout)).2.files = m.files := hothers _ _
      simp only [hanswer, Routine.run_ask]
      refine ih hothers ?_ ?_
      · rw [hfiles]
        exact hl
      · rwa [hfiles]

/-- A marker whose path is too long is never made. -/
theorem attempt_of_long (hnul : '\x00' ∉ marker.text)
    (hlong : FileTree.pathLimit ≤ FileTree.byteLength marker.text) (timeout : Duration) (n : Nat)
    (m : Machine) : ((attempt marker timeout n).run m).1 =
      .error (.failed (.markerStuck marker .nameTooLong)) := by
  have hcreate : ∀ t : FileTree, t.create m.cwd marker privateFileMode = .error .nameTooLong := by
    intro t
    simp only [FileTree.create, FileTree.approach_of_long hnul hlong]
  have hremove : ∀ t : FileTree, t.remove m.cwd marker = .error .nameTooLong := by
    intro t
    simp only [FileTree.remove, FileTree.locate, FileTree.approach_of_long hnul hlong]
  induction n generalizing m with
  | zero =>
    simp only [attempt, seize, Routine.request, Routine.bind_eq, Routine.ask_bind,
      Routine.done_bind, Routine.run_ask, Machine.answer, hremove, hcreate, Machine.change_error]
    rfl
  | succ n ih =>
    simp only [attempt, Routine.request, Routine.bind_eq, Routine.ask_bind, Routine.done_bind,
      Routine.run_ask]
    have hanswer : m.answer (.create marker privateFileMode) = (.error .nameTooLong, m) := by
      simp only [Machine.answer, hcreate, Machine.change_error]
    simp only [hanswer, Routine.run_ask]
    exact ih (m.answer (.sleep timeout)).2 hcreate hremove

end Lock

theorem drawId_congr (existing : List Key) (n : Nat) {m m' : Machine} (h : m.random = m'.random) :
    ((drawId existing n).run m).1 = ((drawId existing n).run m').1 ∧
      ((drawId existing n).run m).2.random = ((drawId existing n).run m').2.random := by
  induction n generalizing m m' with
  | zero => exact ⟨rfl, h⟩
  | succ n ih =>
    have hdraw : (m.answer (.draw idLength)).1 = (m'.answer (.draw idLength)).1 := by
      simp only [Machine.answer, h]
    have hnext : (m.answer (.draw idLength)).2.random = (m'.answer (.draw idLength)).2.random := by
      simp only [Machine.answer, h]
    simp only [drawId, Routine.request, Routine.bind_eq, Routine.ask_bind, Routine.done_bind,
      Routine.run_ask, hdraw]
    cases (m'.answer (.draw idLength)).1 with
    | error fault => exact ⟨rfl, hnext⟩
    | ok block =>
      simp only
      cases usableId? existing block.bytes with
      | some id => exact ⟨rfl, hnext⟩
      | none => exact ih hnext

/-- What key is made depends on the random source alone. -/
theorem freshKey_congr (existing : List Key) (now : Instant) {m m' : Machine}
    (h : m.random = m'.random) :
    ((freshKey existing now).run m).1 = ((freshKey existing now).run m').1 := by
  obtain ⟨hid, hrandom⟩ := drawId_congr existing maxIdAttempts h
  simp only [freshKey, Routine.bind_eq, Routine.run_bind, hid]
  cases ((drawId existing maxIdAttempts).run m').1 with
  | error fault => rfl
  | ok id =>
    simp only [Routine.request, Routine.ask_bind, Routine.done_bind, Routine.run_ask,
      Machine.answer, hrandom]
    split <;> rfl

namespace Keyring

/-- A keyring whose marker has too long a path cannot be renewed. -/
theorem renew_of_long {ring : Keyring} (hnul : '\x00' ∉ ring.marker.text)
    (hlong : FileTree.pathLimit ≤ FileTree.byteLength ring.marker.text) (m : Machine) :
    (ring.renew.run m).1.1 ≠ .ok () := by
  have hfault := Lock.attempt_of_long hnul hlong ring.policy.timeout ring.policy.maxTimeouts
    (m.answer .now).2
  rw [← Lock.acquire] at hfault
  have hren := renew_run ring m
  generalize ring.renew.run m = r at hren ⊢
  cases hren with
  | refused hlock => exact fun h => by cases h
  | failed hlock hext => exact fun h => by cases h
  | added hlock hext =>
    rw [hlock] at hfault
    contradiction

/-- A file can be replaced wherever a file can stand, through a temporary file with a new name. -/
theorem replace_succeeds {file : Path} {bytes : List UInt8} {m : Machine} {k l : Location}
    (hf : file.endsInSeparator = false)
    (htmp : (temporaryFor file (m.uuids m.uuidCount)).endsInSeparator = false)
    (hk : m.files.locate m.cwd file = .ok (.name k)) (hplain : ¬ m.files.HasDirectory k)
    (hl : m.files.locate m.cwd (temporaryFor file (m.uuids m.uuidCount)) =
      .ok (.name l))
    (hfree : m.files.lookup l = none) : ((replace file bytes).run m).1 = .ok () := by
  simp only [replace, Routine.request, Routine.bind_eq, Routine.ask_bind, Routine.done_bind,
    Routine.run_ask, Machine.answer]
  generalize temporaryFor file (m.uuids m.uuidCount) = temporary at htmp hl ⊢
  have hcreate : m.files.create m.cwd temporary privateFileMode = .ok _ :=
    (FileTree.create_eq_ok htmp).mpr ⟨l, hl, hfree, rfl⟩
  obtain ⟨hcreated, hempty⟩ := FileTree.sameBut_create (List.mem_singleton_self _) htmp hcreate
  obtain ⟨hstored, n, hn, hthere⟩ := FileTree.sameBut_store (List.mem_singleton_self _) hempty bytes
  have hsame := hcreated.directories.trans hstored.directories
  have hrename : FileTree.rename _ m.cwd temporary file = .ok _ :=
    (FileTree.rename_file_eq_ok htmp hf hn hthere).mpr
      ⟨k, hsame.locate_eq_ok hk, fun hd => hplain ((hsame k).mpr hd), rfl⟩
  simp only [hcreate, Machine.change_ok, Routine.run_ask, Machine.answer, hrename]
  rfl

/-- The file is extended wherever it can be replaced, with the key that is drawn. -/
theorem extendFile_succeeds {file : Path} {now : Instant} {m : Machine} {k l : Location} {key : Key}
    (hf : file.endsInSeparator = false)
    (htmp : (temporaryFor file (m.uuids m.uuidCount)).endsInSeparator = false)
    (hk : m.files.locate m.cwd file = .ok (.name k)) (hplain : ¬ m.files.HasDirectory k)
    (hl : m.files.locate m.cwd (temporaryFor file (m.uuids m.uuidCount)) =
      .ok (.name l))
    (hfree : m.files.lookup l = none) (hq : m.random.Quiet)
    (hkey : ((freshKey (saved m.files m.cwd file now) now).run m).1 = .ok key) :
    ((extendFile file now).run m).1 = .ok (saved m.files m.cwd file now ++ [key]) := by
  have hdrawn := (freshKey_run (saved m.files m.cwd file now) now m).1
  simp only [extendFile, Routine.bind_eq, Routine.run_bind, load_run, hkey]
  generalize ((freshKey (saved m.files m.cwd file now) now).run m).2 = drawn at hdrawn ⊢
  have hfiles := hdrawn.files_eq hq
  have huuid : drawn.uuids drawn.uuidCount = m.uuids m.uuidCount := by
    rw [hdrawn.uuids_eq, hdrawn.uuidCount_eq]
  rw [← huuid] at htmp hl
  rw [← hfiles, ← hdrawn.cwd_eq] at hk hl
  rw [← hfiles] at hplain hfree
  simp only [replace_succeeds hf htmp hk hplain hl hfree]
  rfl

/-- Undisturbed, a renewal finds the keys under the lock that were there before. -/
theorem IsOf.saved_of_acquire {ring : Keyring} {directory : Path} {context : List Char}
    (h : ring.IsOf directory context) {m locked : Machine} {lock : Lock} (hu : m.Undisturbed)
    (hlock : (Lock.acquire ring.marker ring.policy).run (m.answer .now).2 = (.ok lock, locked))
    (now : Instant) :
    saved locked.files locked.cwd ring.file now = saved m.files m.cwd ring.file now := by
  obtain ⟨-, hwaited, -, l, v, hroom, hfiles⟩ :=
    (hu.answer .now).acquire_ok h.marker_endsInSeparator hlock
  rw [hwaited.cwd_eq, hfiles]
  exact h.saved_of_room hroom privateFileMode now

/-- All that the machine of a renewal has to offer. -/
structure Ready (ring : Keyring) (directory : Path) (context : List Char) (m : Machine) : Prop where
  isOf : ring.IsOf directory context
  undisturbed : m.Undisturbed
  directory_stands : ∃ mode, m.files.entryAt m.cwd directory = .ok (.directory mode)
  context_short : FileTree.byteLength context ≤ 214
  file_plain : ∀ mode, m.files.entryAt m.cwd ring.file ≠ .ok (.directory mode)
  marker_plain : ∀ mode, m.files.entryAt m.cwd ring.marker ≠ .ok (.directory mode)
  temporary_new : ∀ e, m.files.entryAt m.cwd
    (temporaryFor ring.file (m.uuids m.uuidCount)) ≠ .ok e
  key_drawn : ∃ key,
    ((freshKey (saved m.files m.cwd ring.file m.clock.now) m.clock.now).run m).1 = .ok key

namespace Ready

variable {ring : Keyring} {directory : Path} {context : List Char} {m : Machine}
  (h : ring.Ready directory context m)
  (hpath : FileTree.byteLength (temporaryFor ring.file (m.uuids m.uuidCount)).text <
    FileTree.pathLimit)
include h hpath

/-- All three names have places in the directory. -/
theorem places : ∃ k l n, m.files.locate m.cwd ring.file = .ok (.name k) ∧
    m.files.locate m.cwd ring.marker = .ok (.name l) ∧
    m.files.locate m.cwd (temporaryFor ring.file (m.uuids m.uuidCount)) =
      .ok (.name n) := by
  have hof := h.isOf
  obtain ⟨mode, hdir⟩ := h.directory_stands
  obtain ⟨husable, d, hw⟩ := FileTree.walk_of_directory hdir
  have hshort := h.context_short
  have hlimit : FileTree.nameLimit = 255 := rfl
  have htmp := byteLength_temporaryEnding (m.uuids m.uuidCount)
  have hmark := byteLength_markerEnding
  have hlong : FileTree.byteLength ring.file.text + 41 < FileTree.pathLimit := by
    rwa [hof.byteLength_temporary] at hpath
  have hmarker : FileTree.byteLength ring.marker.text < FileTree.pathLimit := by
    rw [hof.byteLength_marker]
    omega
  have hfile : FileTree.byteLength ring.file.text < FileTree.pathLimit := by omega
  rw [hof.temporary_join] at hpath ⊢
  rw [hof.marker_join] at hmarker ⊢
  rw [hof.file_eq] at hfile ⊢
  refine ⟨_, _, _, FileTree.locate_join_eq_ok hof.isName husable.no_nul hw ?_ hfile,
    FileTree.locate_join_eq_ok hof.isName_marker husable.no_nul hw ?_ hmarker,
    FileTree.locate_join_eq_ok (hof.isName_temporary _) husable.no_nul hw ?_ hpath⟩
  · omega
  · rw [FileTree.byteLength_append]
    omega
  · rw [FileTree.byteLength_append]
    omega

/-- A renewal succeeds. -/
theorem renew_succeeds : (ring.renew.run m).1.1 = .ok () := by
  have hof := h.isOf
  obtain ⟨key, hkey⟩ := h.key_drawn
  obtain ⟨k, l, n, hk, hl, hn⟩ := h.places hpath
  have hplain := FileTree.not_hasDirectory_of_entryAt hk h.file_plain
  have hmarker := FileTree.not_hasDirectory_of_entryAt hl h.marker_plain
  have hfree := FileTree.lookup_eq_none_of_entryAt (hof.temporary_endsInSeparator _) hn
    h.temporary_new
  have hlook : (m.answer .now).2.Undisturbed := h.undisturbed.answer .now
  have hren := renew_run ring m
  generalize ring.renew.run m = r at hren ⊢
  cases hren with
  | added hlock hext => rfl
  | refused hlock =>
    have hlocked := Lock.attempt_succeeds hof.marker_endsInSeparator ring.policy.timeout
      ring.policy.maxTimeouts hlook.others_eq hl hmarker
    rw [← Lock.acquire, hlock] at hlocked
    contradiction
  | @failed lock locked m' fault hlock hext =>
    obtain ⟨-, hwaited, hquiet, l', v, hroom, hfiles⟩ :=
      hlook.acquire_ok hof.marker_endsInSeparator hlock
    have hcwd : locked.cwd = m.cwd := hwaited.cwd_eq
    have huuid : locked.uuids locked.uuidCount = m.uuids m.uuidCount := by
      rw [hwaited.uuids_eq, hwaited.uuidCount_eq]
      rfl
    have hv := (hof.contents_of_room hroom).1
    have hsame := hv.trans (FileTree.sameDirectories_insert
      (FileTree.not_hasDirectory_of_none hroom.free) privateFileMode [])
    rw [← hfiles] at hsame
    -- The temporary file has no place at the marker, and nothing stands at its own one.
    have hfree' : locked.files.lookup n = none := by
      have hne := hof.marker_ne_temporary hroom.locate_eq (hv.locate_eq_ok hn)
      rw [hfiles, FileTree.lookup_insert_of_ne v hne.symm]
      by_contra hthere
      exact hroom.lookup_ne_none hthere hfree
    have hkey' : ((freshKey (saved locked.files locked.cwd ring.file m.clock.now)
        m.clock.now).run locked).1 = .ok key := by
      rw [hof.saved_of_acquire h.undisturbed hlock, ← hkey]
      exact freshKey_congr _ _ hwaited.random_eq
    have hok := extendFile_succeeds hof.file_endsInSeparator
      (huuid ▸ hof.temporary_endsInSeparator _) (hcwd ▸ hsame.locate_eq_ok hk)
      (fun hd => hplain ((hsame k).mpr hd)) (huuid ▸ hcwd ▸ hsame.locate_eq_ok hn) hfree' hquiet
      hkey'
    rw [hext] at hok
    contradiction

/-- It keeps the keys that it finds, and writes them with the new one. -/
theorem renew_keeps : ((ring.reload true).run m).1.1 = .ok () ∧ ∃ key,
    ((ring.reload true).run m).1.2.keys = saved m.files m.cwd ring.file m.clock.now ++ [key] ∧
    ((ring.reload true).run m).2.files.read m.cwd ring.file =
      .ok (KeyFile.serialize (saved m.files m.cwd ring.file m.clock.now ++ [key])) := by
  have hof := h.isOf
  have hok : ((ring.reload true).run m).1.1 = .ok () := h.renew_succeeds hpath
  obtain ⟨locked, key, hreloaded⟩ :=
    (reload_exact ⟨directory, context, hof⟩ h.undisturbed.quiet).1 hok
  have hsaved := hof.saved_of_acquire h.undisturbed hreloaded.lock_taken m.clock.now
  have hkeys : ((ring.reload true).run m).1.2.keys =
      saved m.files m.cwd ring.file m.clock.now ++ [key] := by
    rw [hreloaded.ring_eq, hsaved]
  have hfile := hreloaded.file_written
  rw [hkeys, Routine.run_cwd] at hfile
  refine ⟨hok, key, hkeys, ?_⟩
  rw [FileTree.read, hfile]

end Ready

end Keyring

end Keyrings
