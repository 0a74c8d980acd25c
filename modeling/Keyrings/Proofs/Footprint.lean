import Keyrings.Proofs.FileTree

/-! What file operations leave alone. Creating, filling and removing a file, and moving one over
another, change the tree at the paths that they name and nowhere else, and no directory comes or
goes. So whatever is done at some paths, other names are found where they were, with the same
entries. -/

namespace Keyrings.FileTree

variable {t u v : FileTree} {cwd : Location} {p q : Path} {paths more : List Path}

def FileAt (t : FileTree) (cwd : Location) (p : Path) (mode : Mode) (bytes : List UInt8) : Prop :=
  ∃ l, t.locate cwd p = .ok (.name l) ∧ t.lookup l = some (.file mode bytes)

/-- One tree is another one but for files at some paths. -/
structure SameBut (cwd : Location) (paths : List Path) (t u : FileTree) : Prop where
  directories : t.SameDirectories u
  lookup_eq : ∀ l, (∀ p ∈ paths, t.locate cwd p ≠ .ok (.name l)) → u.lookup l = t.lookup l

namespace SameBut

theorem refl (cwd : Location) (paths : List Path) (t : FileTree) : SameBut cwd paths t t :=
  ⟨SameDirectories.refl t, fun _ _ => rfl⟩

theorem mono (h : SameBut cwd paths t u) (hmore : paths ⊆ more) : SameBut cwd more t u :=
  ⟨h.directories, fun l hl => h.lookup_eq l fun p hp => hl p (hmore hp)⟩

theorem trans (h : SameBut cwd paths t u) (h' : SameBut cwd paths u v) : SameBut cwd paths t v where
  directories := h.directories.trans h'.directories
  lookup_eq l hl := by
    rw [h'.lookup_eq l fun p hp hu => hl p hp (h.directories.symm.locate_eq_ok hu),
      h.lookup_eq l hl]

/-- A file elsewhere stays. -/
theorem fileAt (h : SameBut cwd paths t u) {mode : Mode} {bytes : List UInt8}
    (hf : t.FileAt cwd q mode bytes) (hq : ∀ p ∈ paths, ∀ k l, t.locate cwd p = .ok (.name k) →
      t.locate cwd q = .ok (.name l) → k ≠ l) : u.FileAt cwd q mode bytes := by
  obtain ⟨l, hl, hlook⟩ := hf
  refine ⟨l, h.directories.locate_eq_ok hl, ?_⟩
  rw [h.lookup_eq l fun p hp hk => hq p hp l l hk hl rfl, hlook]

end SameBut

/-! ### Equal views -/

theorem walk_congr (h : ∀ l, u.lookup l = t.lookup l) (here : Location)
    (names : List (List Char)) : u.walk here names = t.walk here names := by
  induction names generalizing here with
  | nil => rfl
  | cons name names ih =>
    simp only [walk, h]
    split_ifs
    · exact ih here
    · exact ih here.dropLast
    · rfl
    · split
      · exact ih _
      · rfl
      · rfl

/-- What a path leads to depends on what is seen at locations only. -/
theorem entryAt_congr (h : ∀ l, u.lookup l = t.lookup l) (cwd : Location) (p : Path) :
    u.entryAt cwd p = t.entryAt cwd p := by
  have happroach : u.approach cwd p = t.approach cwd p := by
    simp only [approach, walk_congr h]
  simp only [entryAt, locate, happroach, h]

/-! ### Places -/

namespace FileAt

variable {mode : Mode} {bytes : List UInt8} (h : p.endsInSeparator = false)
  (hf : t.FileAt cwd p mode bytes)
include h hf

theorem entryAt_eq : t.entryAt cwd p = .ok (.file mode bytes) := by
  obtain ⟨l, hl, hlook⟩ := hf
  exact entryAt_of_file h hl hlook

theorem read_eq : t.read cwd p = .ok bytes := by
  rw [read, entryAt_eq h hf]

theorem contents_eq : t.contents cwd p = bytes := by
  rw [contents, read_eq h hf]
  rfl

/-- Where a file stands none can be created. -/
theorem create_ne_ok (mode' : Mode) : t.create cwd p mode' ≠ .ok u := by
  intro hc
  obtain ⟨l, hl, hlook⟩ := hf
  obtain ⟨k, hk, hnone, -⟩ := (create_eq_ok h).mp hc
  rw [hl] at hk
  cases hk
  rw [hlook] at hnone
  contradiction

end FileAt

section Join

variable {dir : Path} {name : List Char} {d : Location}

/-- Where a directory is reached, the names in it do not depend on the tree. -/
theorem locate_join_congr (hn : IsName name) (ht : t.walk (dir.start cwd) dir.names = .ok d)
    (hu : u.walk (dir.start cwd) dir.names = .ok d) :
    u.locate cwd (dir.join ⟨name⟩) = t.locate cwd (dir.join ⟨name⟩) := by
  have hlast : (dir.join ⟨name⟩).names.getLast? = some name := by
    rw [Path.names_join dir hn, List.getLast?_concat]
  have hfront : (dir.join ⟨name⟩).names.dropLast = dir.names := by
    rw [Path.names_join dir hn, List.dropLast_concat]
  have hstart : (if (dir.join ⟨name⟩).isAbsolute then [] else cwd) = dir.start cwd := by
    rw [Path.isAbsolute_join dir hn, Path.start]
  have hdots : ¬ (name = ['.'] ∨ name = ['.', '.']) := not_or.mpr ⟨hn.ne_dot, hn.ne_dots⟩
  have happroach : u.approach cwd (dir.join ⟨name⟩) = t.approach cwd (dir.join ⟨name⟩) := by
    simp only [approach, hlast, hfront, hstart, hdots, if_false, ht, hu]
  rw [locate, locate, happroach]

/-- A name of a directory that is reached has the same entry in a tree that is the same but for
other names. -/
theorem SameBut.entryAt_eq (h : SameBut cwd paths t u) (hn : IsName name)
    (ht : t.walk (dir.start cwd) dir.names = .ok d)
    (hq : ∀ p ∈ paths, ∀ k l, t.locate cwd p = .ok (.name k) →
      t.locate cwd (dir.join ⟨name⟩) = .ok (.name l) → k ≠ l) :
    u.entryAt cwd (dir.join ⟨name⟩) = t.entryAt cwd (dir.join ⟨name⟩) := by
  have hlocate := locate_join_congr hn ht (h.directories.walk_eq_ok_iff.mp ht)
  simp only [entryAt, hlocate]
  cases hl : t.locate cwd (dir.join ⟨name⟩) with
  | error e => rfl
  | ok s =>
    cases s with
    | directory l => exact absurd hl (locate_join_ne_directory hn l)
    | name l => simp only [h.lookup_eq l fun p hp hk => hq p hp l l hk hl rfl]

end Join

/-! ### Operations -/

theorem sameBut_insert {l : Location} (hp : p ∈ paths) (hl : t.locate cwd p = .ok (.name l))
    (hnot : ¬ t.HasDirectory l) (mode : Mode) (bytes : List UInt8) :
    SameBut cwd paths t (t.insert l (.file mode bytes)) where
  directories := sameDirectories_insert hnot mode bytes
  lookup_eq k hk := by
    have hkl : k ≠ l := by
      rintro rfl
      exact hk p hp hl
    rw [lookup_insert_of_ne t hkl]

theorem sameBut_erase {l : Location} (hp : p ∈ paths) (hl : t.locate cwd p = .ok (.name l))
    (hnot : ¬ t.HasDirectory l) : SameBut cwd paths t (t.erase l) where
  directories := sameDirectories_erase hnot
  lookup_eq k hk := by
    have hkl : k ≠ l := by
      rintro rfl
      exact hk p hp hl
    rw [lookup_erase_of_ne t hkl]

theorem sameBut_create (hp : p ∈ paths) (hsep : p.endsInSeparator = false) {mode : Mode}
    (h : t.create cwd p mode = .ok u) : SameBut cwd paths t u ∧ u.FileAt cwd p mode [] := by
  obtain ⟨l, hl, hnone, rfl⟩ := (create_eq_ok hsep).mp h
  have hsame := sameBut_insert hp hl (not_hasDirectory_of_none hnone) mode []
  exact ⟨hsame, l, hsame.directories.locate_eq_ok hl, lookup_insert_self t (locate_ne_nil hl) _⟩

theorem sameBut_remove (hp : p ∈ paths) (hsep : p.endsInSeparator = false)
    (h : t.remove cwd p = .ok u) : SameBut cwd paths t u := by
  obtain ⟨l, mode, bytes, hl, hlook, rfl⟩ := (remove_eq_ok hsep).mp h
  exact sameBut_erase hp hl (not_hasDirectory_of_file hlook)

/-- A file is filled as a whole and keeps its mode. -/
theorem sameBut_store (hp : p ∈ paths) {mode : Mode} {before : List UInt8}
    (hf : t.FileAt cwd p mode before) (bytes : List UInt8) :
    SameBut cwd paths t (t.store cwd p bytes) ∧ (t.store cwd p bytes).FileAt cwd p mode bytes := by
  obtain ⟨l, hl, hlook⟩ := hf
  rw [store_eq hl hlook]
  have hsame := sameBut_insert hp hl (not_hasDirectory_of_file hlook) mode bytes
  exact ⟨hsame, l, hsame.directories.locate_eq_ok hl, lookup_insert_self t (locate_ne_nil hl) _⟩

/-- A file that is moved keeps its mode and its bytes. -/
theorem sameBut_rename (hp : p ∈ paths) (hq : q ∈ paths) (hpsep : p.endsInSeparator = false)
    (hqsep : q.endsInSeparator = false) {mode : Mode} {bytes : List UInt8}
    (hf : t.FileAt cwd p mode bytes) (h : t.rename cwd p q = .ok u) :
    SameBut cwd paths t u ∧ u.FileAt cwd q mode bytes := by
  obtain ⟨l, hl, hlook⟩ := hf
  obtain ⟨k, hk, hnot, rfl⟩ := (rename_file_eq_ok hpsep hqsep hl hlook).mp h
  have herase := sameBut_erase hp hl (not_hasDirectory_of_file hlook)
  have hk' := herase.directories.locate_eq_ok hk
  have hinsert := sameBut_insert hq hk' (fun hd => hnot ((herase.directories k).mpr hd)) mode bytes
  exact ⟨herase.trans hinsert, k, hinsert.directories.locate_eq_ok hk',
    lookup_insert_self _ (locate_ne_nil hk) _⟩

end Keyrings.FileTree
