import Keyrings.Proofs.FreshKey
import Keyrings.Proofs.Lock
import Keyrings.Proofs.Names

/-! What a renewal does to the files. A replacement writes the file or leaves the tree as it was,
and between the two it is a temporary file that comes and goes. A renewal does that under the lock,
so that the marker comes and goes around it; what remains is said of the tree without the marker. -/

namespace Keyrings

namespace Keyring

/-! ### Replacing a file -/

/-- A tree with the file written at its place, where the temporary file had a place of its own. -/
def Written (file temporary : Path) (bytes : List UInt8) (cwd : Location) (t u : FileTree) : Prop :=
  ∃ k l, t.locate cwd file = .ok (.name k) ∧ t.locate cwd temporary = .ok (.name l) ∧
    t.lookup l = none ∧ ¬ t.HasDirectory k ∧ u = t.insert k (.file privateFileMode bytes)

/-- A tree as it was, or without a file that already stood at the place of the temporary one. -/
def Spared (temporary : Path) (cwd : Location) (t u : FileTree) : Prop :=
  u = t ∨ ∃ l mode bytes, t.locate cwd temporary = .ok (.name l) ∧
    t.lookup l = some (.file mode bytes) ∧ u = t.erase l

theorem Written.sameDirectories {file temporary : Path} {bytes : List UInt8} {cwd : Location}
    {t u : FileTree} (h : Written file temporary bytes cwd t u) : t.SameDirectories u := by
  obtain ⟨k, l, -, -, -, hplain, rfl⟩ := h
  exact FileTree.sameDirectories_insert hplain privateFileMode bytes

theorem Spared.sameDirectories {temporary : Path} {cwd : Location} {t u : FileTree}
    (h : Spared temporary cwd t u) : t.SameDirectories u := by
  rcases h with rfl | ⟨l, mode, bytes, hl, hthere, rfl⟩
  · exact FileTree.SameDirectories.refl u
  · exact FileTree.sameDirectories_erase (FileTree.not_hasDirectory_of_file hthere)

section Replace

variable {file temporary : Path} {cwd : Location} {t u : FileTree} {bytes : List UInt8}

theorem remove_spared (hsep : temporary.endsInSeparator = false) (m : Machine) :
    ∃ u, (m.change (m.files.remove m.cwd temporary)).2 = { m with files := u } ∧
      Spared temporary m.cwd m.files u := by
  cases hr : m.files.remove m.cwd temporary with
  | error e => exact ⟨m.files, rfl, Or.inl rfl⟩
  | ok u =>
    obtain ⟨l, mode, old, hl, hlook, hu⟩ := (FileTree.remove_eq_ok hsep).mp hr
    exact ⟨u, rfl, Or.inr ⟨l, mode, old, hl, hlook, hu⟩⟩

/-- Filling the temporary file and moving it over the file, from the tree in which it was created.
A move that is refused is followed by the removal of the temporary file. -/
theorem store_rename {l : Location} (hf : file.endsInSeparator = false)
    (htmp : temporary.endsInSeparator = false) (hl : t.locate cwd temporary = .ok (.name l))
    (hfree : t.lookup l = none) (bytes : List UInt8) {v w : FileTree}
    (hv : v = t.insert l (.file privateFileMode []))
    (hw : w = v.store cwd temporary bytes) :
    (∀ u, w.rename cwd temporary file = .ok u → Written file temporary bytes cwd t u) ∧
      w.remove cwd temporary = .ok t := by
  have hne := FileTree.locate_ne_nil hl
  have hnot := FileTree.not_hasDirectory_of_none hfree
  have hwEq : w = t.insert l (.file privateFileMode bytes) := by
    have hvl : v.lookup l = some (.file privateFileMode []) := by
      rw [hv, FileTree.lookup_insert_self t hne]
    have hsame : t.SameDirectories v := by
      rw [hv]
      exact FileTree.sameDirectories_insert hnot privateFileMode []
    rw [hw, FileTree.store_eq (hsame.locate_eq_ok hl) hvl, hv, FileTree.insert_insert_self]
  have hwl : w.lookup l = some (.file privateFileMode bytes) := by
    rw [hwEq, FileTree.lookup_insert_self t hne]
  have hsame : t.SameDirectories w := by
    rw [hwEq]
    exact FileTree.sameDirectories_insert hnot privateFileMode bytes
  have herase : w.erase l = t := by
    rw [hwEq, FileTree.erase_insert_of_lookup_eq_none hfree]
  have hlw := hsame.locate_eq_ok hl
  constructor
  · intro u hu
    obtain ⟨k, hk, hplain, rfl⟩ := (FileTree.rename_file_eq_ok htmp hf hlw hwl).mp hu
    rw [herase]
    exact ⟨k, l, hsame.symm.locate_eq_ok hk, hl, hfree, fun hd => hplain ((hsame k).mp hd), rfl⟩
  · exact (FileTree.remove_eq_ok htmp).mpr ⟨l, _, _, hlw, hwl, herase.symm⟩

theorem replace_run (hf : file.endsInSeparator = false)
    (htmp : ∀ u, (temporaryFor file u).endsInSeparator = false) (bytes : List UInt8)
    (m : Machine) :
    ∃ u, ((replace file bytes).run m).2 = { m with files := u, uuidCount := m.uuidCount + 1 } ∧
      match ((replace file bytes).run m).1 with
      | .ok _ =>
        Written file (temporaryFor file (m.uuids m.uuidCount)) bytes m.cwd m.files u
      | .error _ =>
        Spared (temporaryFor file (m.uuids m.uuidCount)) m.cwd m.files u := by
  have hsep := htmp (m.uuids m.uuidCount)
  simp only [replace, Routine.request, Routine.bind_eq, Routine.ask_bind, Routine.done_bind,
    Routine.run_ask, Machine.answer]
  generalize temporaryFor file (m.uuids m.uuidCount) = temporary at hsep ⊢
  cases hc : m.files.create m.cwd temporary privateFileMode with
  | error e =>
    simp only [Machine.change_error, Routine.pure_eq]
    obtain ⟨u, hu, hspared⟩ :=
      remove_spared hsep { m with uuidCount := m.uuidCount + 1 }
    exact ⟨u, by simpa [Machine.answer] using hu, hspared⟩
  | ok v =>
    obtain ⟨l, hl, hfree, hv⟩ := (FileTree.create_eq_ok hsep).mp hc
    obtain ⟨hrename, hremove⟩ := store_rename hf hsep hl hfree bytes hv rfl
    simp only [Machine.change_ok, Routine.run_ask, Machine.answer]
    cases hr : (v.store m.cwd temporary bytes).rename m.cwd temporary file with
    | error e =>
      simp only [Machine.change_error, Routine.run_ask, Machine.answer, hremove, Machine.change_ok]
      exact ⟨m.files, rfl, Or.inl rfl⟩
    | ok u =>
      simp only [Machine.change_ok, Routine.pure_eq, Routine.run_done]
      exact ⟨u, rfl, hrename u hr⟩

end Replace

/-! ### Adding a key to a file -/

/-- The keys in a file at the time `now`; there are none if there is no file to read. -/
def saved (t : FileTree) (cwd : Location) (file : Path) (now : Instant) : List Key :=
  KeyFile.parse (t.contents cwd file) now

theorem load_run (file : Path) (now : Instant) (m : Machine) :
    (load file now).run m = (saved m.files m.cwd file now, m) := by
  simp only [load, Routine.request, Routine.bind_eq, Routine.ask_bind, Routine.done_bind,
    Routine.run_ask, Machine.answer, saved, FileTree.contents]
  cases m.files.read m.cwd file with
  | error e => rfl
  | ok bytes => rfl

/-- The replacement works on the tree that the draws leave, which is the one before them if others
are quiet. -/
theorem extendFile_run {file : Path} (hf : file.endsInSeparator = false)
    (htmp : ∀ u, (temporaryFor file u).endsInSeparator = false) (now : Instant)
    (m : Machine) :
    m.Kept ((extendFile file now).run m).2 ∧ ∃ t, (m.random.Quiet → t = m.files) ∧
      match ((extendFile file now).run m).1 with
      | .ok keys => ∃ key,
          ((freshKey (saved m.files m.cwd file now) now).run m).1 = .ok key ∧
          keys = saved m.files m.cwd file now ++ [key] ∧
          Written file (temporaryFor file (m.uuids m.uuidCount))
            (KeyFile.serialize keys) m.cwd t ((extendFile file now).run m).2.files
      | .error _ => Spared (temporaryFor file (m.uuids m.uuidCount)) m.cwd t
          ((extendFile file now).run m).2.files := by
  simp only [extendFile, Routine.bind_eq, Routine.run_bind, load_run]
  generalize saved m.files m.cwd file now = old
  obtain ⟨hdrawn, -⟩ := freshKey_run old now m
  cases hr : (freshKey old now).run m with
  | mk outcome drawn =>
    rw [hr] at hdrawn
    cases outcome with
    | error fault => exact ⟨hdrawn.toKept, drawn.files, hdrawn.files_eq, Or.inl rfl⟩
    | ok key =>
      obtain ⟨u, hu, hreplaced⟩ := replace_run hf htmp (KeyFile.serialize (old ++ [key])) drawn
      simp only [Routine.run_bind]
      cases hw : (replace file (KeyFile.serialize (old ++ [key]))).run drawn with
      | mk outcome replaced =>
        rw [hw] at hu hreplaced
        simp only at hu
        rw [hdrawn.uuids_eq, hdrawn.uuidCount_eq, hdrawn.cwd_eq] at hreplaced
        have hkept : m.Kept replaced := by
          rw [hu]
          exact ⟨hdrawn.cwd_eq, hdrawn.clock_eq, hdrawn.others_eq, hdrawn.quiet⟩
        have hfiles : replaced.files = u := by rw [hu]
        cases outcome with
        | error e =>
          refine ⟨hkept, drawn.files, hdrawn.files_eq, ?_⟩
          exact hfiles ▸ hreplaced
        | ok _ =>
          refine ⟨hkept, drawn.files, hdrawn.files_eq, key, rfl, rfl, ?_⟩
          exact hfiles ▸ hreplaced

/-! ### Giving the lock back -/

namespace IsOf

variable {ring : Keyring} {directory : Path} {context : List Char} (h : ring.IsOf directory context)
  {t u : FileTree} {cwd l : Location} {x : Uuid} {bytes : List UInt8} {mode : Mode}
  (hl : t.locate cwd ring.marker = .ok (.name l)) (hfree : t.lookup l = none)
include h hl hfree

/-- What was written beside a marker is written without it once the marker is removed. -/
theorem written_remove
    (hw : Written ring.file (temporaryFor ring.file x) bytes cwd
      (t.insert l (.file mode [])) u) :
    ∃ w, u.remove cwd ring.marker = .ok w ∧
      Written ring.file (temporaryFor ring.file x) bytes cwd t w := by
  have hu := hw.sameDirectories
  obtain ⟨k, n, hk, hn, hroom, hplain, rfl⟩ := hw
  have hne := FileTree.locate_ne_nil hl
  have hsame := FileTree.sameDirectories_insert (FileTree.not_hasDirectory_of_none hfree) mode []
  have hkt := hsame.symm.locate_eq_ok hk
  have hnt := hsame.symm.locate_eq_ok hn
  have hkl := h.file_ne_marker hkt hl
  have hln := h.marker_ne_temporary hl hnt
  have hlook : ((t.insert l (.file mode [])).insert k (.file privateFileMode bytes)).lookup l =
      some (.file mode []) := by
    rw [FileTree.lookup_insert_of_ne _ hkl.symm, FileTree.lookup_insert_self t hne]
  refine ⟨_, (FileTree.remove_eq_ok h.marker_endsInSeparator).mpr
    ⟨l, mode, [], (hsame.trans hu).locate_eq_ok hl, hlook, rfl⟩, k, n, hkt, hnt, ?_, ?_, ?_⟩
  · rwa [FileTree.lookup_insert_of_ne t hln.symm] at hroom
  · exact fun hd => hplain ((hsame k).mp hd)
  · rw [FileTree.erase_insert_of_ne _ hkl, FileTree.erase_insert_of_lookup_eq_none hfree]

theorem spared_remove
    (hs : Spared (temporaryFor ring.file x) cwd (t.insert l (.file mode [])) u) :
    ∃ w, u.remove cwd ring.marker = .ok w ∧
      Spared (temporaryFor ring.file x) cwd t w := by
  have hne := FileTree.locate_ne_nil hl
  have hsame := FileTree.sameDirectories_insert (FileTree.not_hasDirectory_of_none hfree) mode []
  have hu := hs.sameDirectories
  rcases hs with rfl | ⟨n, mode', old, hn, hthere, rfl⟩
  · exact ⟨_, (FileTree.remove_eq_ok h.marker_endsInSeparator).mpr
      ⟨l, mode, [], hsame.locate_eq_ok hl, FileTree.lookup_insert_self t hne _, rfl⟩,
      Or.inl (FileTree.erase_insert_of_lookup_eq_none hfree _)⟩
  · have hnt := hsame.symm.locate_eq_ok hn
    have hln := h.marker_ne_temporary hl hnt
    have hlook : ((t.insert l (.file mode [])).erase n).lookup l = some (.file mode []) := by
      rw [FileTree.lookup_erase_of_ne _ hln, FileTree.lookup_insert_self t hne]
    have herased : (t.erase n).lookup l = none := by
      rw [FileTree.lookup_erase_of_ne t hln, hfree]
    refine ⟨_, (FileTree.remove_eq_ok h.marker_endsInSeparator).mpr
      ⟨l, mode, [], (hsame.trans hu).locate_eq_ok hl, hlook, rfl⟩,
      Or.inr ⟨n, mode', old, hnt, ?_, ?_⟩⟩
    · rwa [FileTree.lookup_insert_of_ne t hln.symm] at hthere
    · rw [FileTree.erase_insert_of_ne t hln, FileTree.erase_insert_of_lookup_eq_none herased]

/-- A tree with the file written, as its paths show it. -/
theorem written_shows
    (hw : Written ring.file (temporaryFor ring.file x) bytes cwd t u) :
    u.entryAt cwd ring.file = .ok (.file privateFileMode bytes) ∧
      u.entryAt cwd ring.marker = .error .notFound ∧
      u.entryAt cwd (temporaryFor ring.file x) = .error .notFound ∧
      ∀ m, u.locate cwd ring.file ≠ .ok (.name m) → u.lookup m = t.lookup m := by
  have hsame := hw.sameDirectories
  obtain ⟨k, n, hk, hn, hroom, -, rfl⟩ := hw
  have hne := FileTree.locate_ne_nil hk
  have hkl := h.file_ne_marker hk hl
  have hkn := h.file_ne_temporary hk hn
  refine ⟨?_, ?_, ?_, ?_⟩
  · exact FileTree.entryAt_of_file h.file_endsInSeparator (hsame.locate_eq_ok hk)
      (FileTree.lookup_insert_self t hne _)
  · refine FileTree.entryAt_of_none (hsame.locate_eq_ok hl) ?_
    rw [FileTree.lookup_insert_of_ne t hkl.symm, hfree]
  · refine FileTree.entryAt_of_none (hsame.locate_eq_ok hn) ?_
    rw [FileTree.lookup_insert_of_ne t hkn.symm, hroom]
  · intro m hm
    have hmk : m ≠ k := by
      rintro rfl
      exact hm (hsame.locate_eq_ok hk)
    rw [FileTree.lookup_insert_of_ne t hmk]

end IsOf

/-! ### Contents of the file -/

namespace IsOf

variable {ring : Keyring} {directory : Path} {context : List Char} (h : ring.IsOf directory context)
  {t u v : FileTree} {cwd l : Location} {x : Uuid} {bytes : List UInt8}
include h

theorem contents_of_room (hroom : Lock.Room ring.marker cwd l t v) :
    t.SameDirectories v ∧ v.contents cwd ring.file = t.contents cwd ring.file := by
  rcases hroom.stale with rfl | ⟨mode, old, hl, hthere, rfl⟩
  · exact ⟨FileTree.SameDirectories.refl v, rfl⟩
  · have hsame := FileTree.sameDirectories_erase (FileTree.not_hasDirectory_of_file hthere)
    refine ⟨hsame, h.contents_congr hsame fun k hk => ?_⟩
    exact FileTree.lookup_erase_of_ne t (h.file_ne_marker hk hl)

/-- Under the lock there are the same keys as before it. -/
theorem saved_of_room (hroom : Lock.Room ring.marker cwd l t v) (mode : Mode) (now : Instant) :
    saved (v.insert l (.file mode bytes)) cwd ring.file now = saved t cwd ring.file now := by
  have hsame := FileTree.sameDirectories_insert (FileTree.not_hasDirectory_of_none hroom.free)
    mode bytes
  have hmarker : (v.insert l (.file mode bytes)).contents cwd ring.file =
      v.contents cwd ring.file :=
    h.contents_congr hsame fun k hk =>
      FileTree.lookup_insert_of_ne v (h.file_ne_marker hk hroom.locate_eq) _
  rw [saved, hmarker, (h.contents_of_room hroom).2, saved]

theorem contents_of_spared (hs : Spared (temporaryFor ring.file x) cwd t u) :
    u.contents cwd ring.file = t.contents cwd ring.file := by
  refine h.contents_congr hs.sameDirectories fun k hk => ?_
  rcases hs with rfl | ⟨n, mode, old, hn, -, rfl⟩
  · rfl
  · exact FileTree.lookup_erase_of_ne t (h.file_ne_temporary hk hn)

theorem read_of_written
    (hw : Written ring.file (temporaryFor ring.file x) bytes cwd t u) :
    u.read cwd ring.file = .ok bytes := by
  have hsame := hw.sameDirectories
  obtain ⟨k, n, hk, -, -, -, rfl⟩ := hw
  exact FileTree.read_eq_ok_of_file h.file_endsInSeparator (hsame.locate_eq_ok hk)
    (FileTree.lookup_insert_self t (FileTree.locate_ne_nil hk) _)

/-- A directory in which a marker can stand is not made again. -/
theorem makeDirectory_ne_ok (hl : t.locate cwd ring.marker = .ok (.name l)) (mode : Mode) :
    t.makeDirectory cwd directory mode ≠ .ok u := by
  rw [h.marker_join] at hl
  obtain ⟨d, hd, -⟩ := FileTree.locate_join h.isName_marker hl
  exact FileTree.makeDirectory_ne_ok hd mode

end IsOf

end Keyring

end Keyrings
