import Keyrings.FileTree
import Keyrings.Proofs.Path

/-! File operations on names of one directory. A path of such a name leads to its place exactly
when the directory is reached, and it leads there still after any change that keeps the directories
as they are. Creating, filling, removing and moving files are such changes; each of them is an
insertion or an erasure at one place. -/

namespace Keyrings

def Path.start (p : Path) (cwd : Location) : Location := if p.isAbsolute then [] else cwd

/-- What every operation asks of the text of a path. -/
structure Path.IsUsable (p : Path) : Prop where
  no_nul : '\x00' ∉ p.text
  ne_nil : p.text ≠ []
  short : FileTree.byteLength p.text < FileTree.pathLimit

namespace FileTree

/-! ### Equal tables -/

theorem find_eq_none_iff {l : Location} {xs : List (Location × Entry)} :
    find l xs = none ↔ ∀ x ∈ xs, x.1 ≠ l := by
  induction xs with
  | nil => simp [find]
  | cons x xs ih =>
    obtain ⟨k, e⟩ := x
    by_cases hk : k = l
    · simp [find, hk]
    · simp [find, hk, ih]

/-- Erasing where nothing stands changes nothing. -/
theorem erase_of_lookup_eq_none {t : FileTree} {l : Location} (h : t.lookup l = none) :
    t.erase l = t := by
  have hl : l ≠ [] := by
    rintro rfl
    simp [lookup] at h
  rw [lookup, if_neg hl, find_eq_none_iff] at h
  have hall : t.entries.filter (fun x => x.1 ≠ l) = t.entries :=
    List.filter_eq_self.mpr fun x hx => by simpa using h x hx
  simp only [erase, hall]

theorem erase_insert_self (t : FileTree) (l : Location) (e : Entry) :
    (t.insert l e).erase l = t.erase l := by
  simp [insert, erase]

theorem insert_insert_self (t : FileTree) (l : Location) (e e' : Entry) :
    (t.insert l e).insert l e' = t.insert l e' := by
  have h := erase_insert_self t l e
  simp only [insert] at h ⊢
  rw [h]

/-- An erasure passes an insertion elsewhere. -/
theorem erase_insert_of_ne (t : FileTree) {l m : Location} (h : l ≠ m) (e : Entry) :
    (t.insert l e).erase m = (t.erase m).insert l e := by
  simp only [insert, erase, List.filter_filter]
  rw [List.filter_cons_of_pos (by simpa using h), List.filter_filter]
  simp only [Bool.and_comm]

theorem erase_insert_of_lookup_eq_none {t : FileTree} {l : Location} (h : t.lookup l = none)
    (e : Entry) : (t.insert l e).erase l = t := by
  rw [erase_insert_self, erase_of_lookup_eq_none h]

/-! ### Directories -/

def HasDirectory (t : FileTree) (l : Location) : Prop := ∃ m, t.lookup l = some (.directory m)

def SameDirectories (t u : FileTree) : Prop := ∀ l, t.HasDirectory l ↔ u.HasDirectory l

theorem SameDirectories.refl (t : FileTree) : t.SameDirectories t := fun _ => Iff.rfl

theorem SameDirectories.symm {t u : FileTree} (h : t.SameDirectories u) : u.SameDirectories t :=
  fun l => (h l).symm

theorem SameDirectories.trans {t u v : FileTree} (h : t.SameDirectories u)
    (h' : u.SameDirectories v) : t.SameDirectories v := fun l => (h l).trans (h' l)

theorem ne_nil_of_not_hasDirectory {t : FileTree} {l : Location} (h : ¬ t.HasDirectory l) :
    l ≠ [] := by
  rintro rfl
  exact h ⟨directoryMode, by simp [lookup]⟩

/-- A file put in the place of anything but a directory leaves the directories as they are. -/
theorem sameDirectories_insert {t : FileTree} {l : Location} (h : ¬ t.HasDirectory l) (m : Mode)
    (bytes : List UInt8) : t.SameDirectories (t.insert l (.file m bytes)) := by
  have hl := ne_nil_of_not_hasDirectory h
  intro k
  by_cases hk : k = l
  · subst hk
    have hnot : ¬ (t.insert k (.file m bytes)).HasDirectory k := by
      rintro ⟨_, hd⟩
      rw [lookup_insert_self t hl] at hd
      simp at hd
    exact iff_of_false h hnot
  · simp only [HasDirectory, lookup_insert_of_ne t hk]

theorem sameDirectories_erase {t : FileTree} {l : Location} (h : ¬ t.HasDirectory l) :
    t.SameDirectories (t.erase l) := by
  have hl := ne_nil_of_not_hasDirectory h
  intro k
  by_cases hk : k = l
  · subst hk
    have hnot : ¬ (t.erase k).HasDirectory k := by
      rintro ⟨_, hd⟩
      rw [lookup_erase_self t hl] at hd
      simp at hd
    exact iff_of_false h hnot
  · simp only [HasDirectory, lookup_erase_of_ne t hk]

theorem not_hasDirectory_of_none {t : FileTree} {l : Location} (h : t.lookup l = none) :
    ¬ t.HasDirectory l := by
  rintro ⟨_, hd⟩
  simp [h] at hd

theorem not_hasDirectory_of_file {t : FileTree} {l : Location} {m : Mode} {bytes : List UInt8}
    (h : t.lookup l = some (.file m bytes)) : ¬ t.HasDirectory l := by
  rintro ⟨_, hd⟩
  simp [h] at hd

/-! ### Walking -/

theorem walk_append_eq_ok {t : FileTree} {here there : Location} {xs ys : List (List Char)} :
    t.walk here (xs ++ ys) = .ok there ↔
      ∃ mid, t.walk here xs = .ok mid ∧ t.walk mid ys = .ok there := by
  induction xs generalizing here with
  | nil => simp [walk]
  | cons x xs ih =>
    simp only [List.cons_append, walk]
    split_ifs
    · exact ih
    · exact ih
    · simp
    · split
      · exact ih
      · simp
      · simp

/-- More directories lead at least as far. -/
theorem walk_eq_ok_of_le {t u : FileTree} (h : ∀ l, t.HasDirectory l → u.HasDirectory l)
    {here there : Location} {names : List (List Char)} (hw : t.walk here names = .ok there) :
    u.walk here names = .ok there := by
  induction names generalizing here with
  | nil => exact hw
  | cons name names ih =>
    simp only [walk] at hw ⊢
    split_ifs at hw ⊢
    · exact ih hw
    · exact ih hw
    · split at hw
      · rename_i m hd
        obtain ⟨m', hd'⟩ := h _ ⟨m, hd⟩
        rw [hd']
        exact ih hw
      · contradiction
      · contradiction

theorem SameDirectories.walk_eq_ok_iff {t u : FileTree} (h : t.SameDirectories u)
    {here there : Location} {names : List (List Char)} :
    t.walk here names = .ok there ↔ u.walk here names = .ok there :=
  ⟨walk_eq_ok_of_le fun l => (h l).mp, walk_eq_ok_of_le fun l => (h l).mpr⟩

/-! ### Places -/

/-- Where a path leads if its text is usable: to where it starts, to a directory that its dots name,
or to a name in a directory. -/
inductive Leads (t : FileTree) (cwd : Location) (p : Path) : Spot → Prop
  | start (h : p.names = []) : Leads t cwd p (.directory (p.start cwd))
  | dots {front : List (List Char)} {last : List Char} {d : Location}
      (h : p.names = front ++ [last]) (hdots : last = ['.'] ∨ last = ['.', '.'])
      (hw : t.walk (p.start cwd) p.names = .ok d) : Leads t cwd p (.directory d)
  | name {front : List (List Char)} {last : List Char} {d : Location}
      (h : p.names = front ++ [last]) (hdots : ¬ (last = ['.'] ∨ last = ['.', '.']))
      (hw : t.walk (p.start cwd) front = .ok d) : Leads t cwd p (.name (d ++ [last]))

variable {t u : FileTree} {cwd : Location} {p : Path}

theorem approach_eq_ok {s : Spot} :
    t.approach cwd p = .ok s ↔ p.IsUsable ∧ Leads t cwd p s := by
  unfold approach
  simp only [List.contains_iff_mem]
  by_cases hnul : '\x00' ∈ p.text
  · simp only [hnul, if_true]
    exact iff_of_false (by simp) fun h => h.1.no_nul hnul
  by_cases hempty : p.text = []
  · simp only [hempty]
    exact iff_of_false (by simp) fun h => h.1.ne_nil hempty
  by_cases hlong : pathLimit ≤ byteLength p.text
  · simp only [hnul, hlong, List.isEmpty_eq_false_iff.mpr hempty, if_true, if_false]
    exact iff_of_false (by simp) fun h => absurd h.1.short (by omega)
  have husable : p.IsUsable := ⟨hnul, hempty, by omega⟩
  have hstart : (if p.isAbsolute then [] else cwd) = p.start cwd := rfl
  simp only [hnul, hlong, List.isEmpty_eq_false_iff.mpr hempty, if_false, Bool.false_eq_true,
    husable, true_and, hstart]
  cases hl : p.names.getLast? with
  | none =>
    have hnames : p.names = [] := List.getLast?_eq_none_iff.mp hl
    constructor
    · rintro ⟨⟩
      exact .start hnames
    · rintro (_ | ⟨h, _, _⟩ | ⟨h, _, _⟩)
      · rfl
      · simp [hnames] at h
      · simp [hnames] at h
  | some last =>
    obtain ⟨front, hnames⟩ := List.getLast?_eq_some_iff.mp hl
    have hlast : ∀ {front' last'}, p.names = front' ++ [last'] → front' = front ∧ last' = last := by
      intro front' last' h
      simpa using List.append_inj' (h.symm.trans hnames) rfl
    by_cases hdots : last = ['.'] ∨ last = ['.', '.']
    · simp only [hdots, if_true]
      constructor
      · intro h
        cases hw : t.walk (p.start cwd) p.names with
        | error e => simp [hw, Except.map] at h
        | ok d =>
          simp only [hw, Except.map, Except.ok.injEq] at h
          subst h
          exact .dots hnames hdots hw
      · rintro (h | ⟨_, _, hw⟩ | ⟨h, hnot, _⟩)
        · simp [hnames] at h
        · simp [hw, Except.map]
        · exact absurd ((hlast h).2 ▸ hdots) hnot
    · simp only [hdots, if_false]
      rw [hnames, List.dropLast_concat]
      constructor
      · intro h
        cases hw : t.walk (p.start cwd) front with
        | error e => simp [hw, Except.map] at h
        | ok d =>
          simp only [hw, Except.map, Except.ok.injEq] at h
          subst h
          exact .name hnames hdots hw
      · rintro (h | ⟨h, hyes, _⟩ | ⟨h, _, hw⟩)
        · simp [hnames] at h
        · exact absurd ((hlast h).2 ▸ hyes) hdots
        · obtain ⟨rfl, rfl⟩ := hlast h
          simp [hw, Except.map]

/-- A path leads to the same place through the same directories. -/
theorem SameDirectories.leads (h : t.SameDirectories u) {s : Spot} (hl : t.Leads cwd p s) :
    u.Leads cwd p s := by
  cases hl with
  | start hn => exact .start hn
  | dots hn hd hw => exact .dots hn hd (h.walk_eq_ok_iff.mp hw)
  | name hn hd hw => exact .name hn hd (h.walk_eq_ok_iff.mp hw)

theorem locate_eq_ok_name {l : Location} : t.locate cwd p = .ok (.name l) ↔
    p.IsUsable ∧ t.Leads cwd p (.name l) ∧ isTooLong l = false := by
  rw [← and_assoc, ← approach_eq_ok]
  unfold locate
  cases ha : t.approach cwd p with
  | error e => simp
  | ok s =>
    cases s with
    | directory d => simp
    | name k =>
      by_cases hk : isTooLong k = true
      · simp only [hk, if_true]
        exact iff_of_false (by simp) fun h => by
          cases h.1
          simp [hk] at h
      · simp only [hk]
        exact ⟨fun h => ⟨h, by cases h; simpa using hk⟩, fun h => h.1⟩

theorem SameDirectories.locate_eq_ok (h : t.SameDirectories u) {l : Location}
    (hl : t.locate cwd p = .ok (.name l)) : u.locate cwd p = .ok (.name l) := by
  obtain ⟨husable, hleads, hshort⟩ := locate_eq_ok_name.mp hl
  exact locate_eq_ok_name.mpr ⟨husable, h.leads hleads, hshort⟩

theorem locate_ne_nil {l : Location} (h : t.locate cwd p = .ok (.name l)) : l ≠ [] := by
  cases (locate_eq_ok_name.mp h).2.1
  simp

section Join

variable {dir : Path} {name : List Char}

theorem leads_join (h : IsName name) {s : Spot} (hl : t.Leads cwd (dir.join ⟨name⟩) s) :
    ∃ d, t.walk (dir.start cwd) dir.names = .ok d ∧ s = .name (d ++ [name]) := by
  have hnames := Path.names_join dir h
  have hstart : (dir.join ⟨name⟩).start cwd = dir.start cwd := by
    rw [Path.start, Path.isAbsolute_join dir h, Path.start]
  have hlast : ∀ {front last}, (dir.join ⟨name⟩).names = front ++ [last] →
      front = dir.names ∧ last = name := by
    intro front last hn
    simpa using List.append_inj' (hn.symm.trans hnames) rfl
  cases hl with
  | start hn => simp [hnames] at hn
  | dots hn hdots _ =>
    obtain ⟨rfl, rfl⟩ := hlast hn
    exact absurd hdots (not_or.mpr ⟨h.ne_dot, h.ne_dots⟩)
  | name hn _ hw =>
    obtain ⟨rfl, rfl⟩ := hlast hn
    exact ⟨_, hstart ▸ hw, rfl⟩

/-- A name below a directory leads to a place in that directory. -/
theorem locate_join (h : IsName name) {l : Location}
    (hl : t.locate cwd (dir.join ⟨name⟩) = .ok (.name l)) :
    ∃ d, t.walk (dir.start cwd) dir.names = .ok d ∧ l = d ++ [name] := by
  obtain ⟨d, hd, hs⟩ := leads_join h (locate_eq_ok_name.mp hl).2.1
  cases hs
  exact ⟨d, hd, rfl⟩

theorem locate_join_ne_directory (h : IsName name) (l : Location) :
    t.locate cwd (dir.join ⟨name⟩) ≠ .ok (.directory l) := by
  intro hl
  unfold locate at hl
  cases ha : t.approach cwd (dir.join ⟨name⟩) with
  | error e => simp [ha] at hl
  | ok s =>
    obtain ⟨d, _, rfl⟩ := leads_join h (approach_eq_ok.mp ha).2
    simp only [ha] at hl
    split_ifs at hl
    cases hl

/-- A name below a directory leads nowhere, or to a place in that directory. -/
theorem locate_join_cases (t : FileTree) (cwd : Location) (dir : Path) (h : IsName name) :
    (∃ e, t.locate cwd (dir.join ⟨name⟩) = .error e) ∨
      ∃ d, t.walk (dir.start cwd) dir.names = .ok d ∧
        t.locate cwd (dir.join ⟨name⟩) = .ok (.name (d ++ [name])) := by
  cases hl : t.locate cwd (dir.join ⟨name⟩) with
  | error e => exact Or.inl ⟨e, rfl⟩
  | ok s =>
    cases s with
    | directory l => exact absurd hl (locate_join_ne_directory h l)
    | name l =>
      obtain ⟨d, hd, rfl⟩ := locate_join h hl
      exact Or.inr ⟨d, hd, rfl⟩

/-- Two names of one directory have two places. -/
theorem locate_join_ne {other : List Char} (h : IsName name) (h' : IsName other)
    (hne : name ≠ other) {k l : Location} (hk : t.locate cwd (dir.join ⟨name⟩) = .ok (.name k))
    (hl : t.locate cwd (dir.join ⟨other⟩) = .ok (.name l)) : k ≠ l := by
  obtain ⟨d, hd, rfl⟩ := locate_join h hk
  obtain ⟨e, he, rfl⟩ := locate_join h' hl
  rw [hd] at he
  cases he
  simpa using hne

end Join

/-! ### Operations -/

/-- Creating puts an empty file where nothing stood. -/
theorem create_eq_ok (h : p.endsInSeparator = false) {mode : Mode} :
    t.create cwd p mode = .ok u ↔ ∃ l, t.locate cwd p = .ok (.name l) ∧ t.lookup l = none ∧
      u = t.insert l (.file mode []) := by
  simp only [create, locate, h, Bool.false_eq_true, if_false]
  cases ha : t.approach cwd p with
  | error e => simp
  | ok s =>
    cases s with
    | directory d => simp
    | name k =>
      by_cases hk : isTooLong k = true
      · simp [hk]
      · cases hlook : t.lookup k with
        | none => simp [hk, hlook, eq_comm]
        | some e => simp [hk, hlook]

/-- Removing takes a file away. -/
theorem remove_eq_ok (h : p.endsInSeparator = false) :
    t.remove cwd p = .ok u ↔ ∃ l mode bytes, t.locate cwd p = .ok (.name l) ∧
      t.lookup l = some (.file mode bytes) ∧ u = t.erase l := by
  unfold remove
  cases hl : t.locate cwd p with
  | error e => simp
  | ok s =>
    cases s with
    | directory d => simp
    | name k =>
      cases hlook : t.lookup k with
      | none => simp [hlook]
      | some e => cases e <;> simp [hlook, h, eq_comm]

/-- Filling a file keeps its mode. -/
theorem store_eq {l : Location} (hl : t.locate cwd p = .ok (.name l)) {mode : Mode}
    {before : List UInt8} (hlook : t.lookup l = some (.file mode before)) (bytes : List UInt8) :
    t.store cwd p bytes = t.insert l (.file mode bytes) := by
  simp [store, hl, hlook]

/-- A file moves to any place where no directory stands. -/
theorem rename_file_eq_ok {q : Path} (hp : p.endsInSeparator = false)
    (hq : q.endsInSeparator = false) {l : Location} (hl : t.locate cwd p = .ok (.name l))
    {mode : Mode} {bytes : List UInt8} (hlook : t.lookup l = some (.file mode bytes)) :
    t.rename cwd p q = .ok u ↔ ∃ target, t.locate cwd q = .ok (.name target) ∧
      ¬ t.HasDirectory target ∧ u = (t.erase l).insert target (.file mode bytes) := by
  unfold rename
  rw [hl]
  cases hk : t.locate cwd q with
  | error e => simp
  | ok s =>
    cases s with
    | directory d => simp
    | name k =>
      cases hthere : t.lookup k with
      | none => simp [hlook, hthere, hp, hq, HasDirectory, eq_comm]
      | some e => cases e <;> simp [hlook, hthere, hp, hq, HasDirectory, eq_comm]

/-- After a removal there is room for a new file. -/
theorem create_of_remove (h : p.endsInSeparator = false) (hr : t.remove cwd p = .ok u)
    (mode : Mode) : ∃ l, t.locate cwd p = .ok (.name l) ∧ u = t.erase l ∧
      u.create cwd p mode = .ok (u.insert l (.file mode [])) := by
  obtain ⟨l, m, bytes, hl, hlook, rfl⟩ := (remove_eq_ok h).mp hr
  have hne := locate_ne_nil hl
  have hsame := sameDirectories_erase (not_hasDirectory_of_file hlook)
  exact ⟨l, hl, rfl, (create_eq_ok h).mpr
    ⟨l, hsame.locate_eq_ok hl, lookup_erase_self t hne, rfl⟩⟩

/-! ### Contents -/

/-- The bytes of a file, or none if there is no file to read. -/
def contents (t : FileTree) (cwd : Location) (p : Path) : List UInt8 :=
  (t.read cwd p).toOption.getD []

theorem entryAt_of_file (h : p.endsInSeparator = false) {l : Location}
    (hl : t.locate cwd p = .ok (.name l)) {mode : Mode} {bytes : List UInt8}
    (hlook : t.lookup l = some (.file mode bytes)) :
    t.entryAt cwd p = .ok (.file mode bytes) := by
  simp [entryAt, hl, hlook, h]

theorem entryAt_of_none {l : Location} (hl : t.locate cwd p = .ok (.name l))
    (hlook : t.lookup l = none) : t.entryAt cwd p = .error .notFound := by
  simp [entryAt, hl, hlook]

theorem read_eq_ok_of_file (h : p.endsInSeparator = false) {l : Location}
    (hl : t.locate cwd p = .ok (.name l)) {mode : Mode} {bytes : List UInt8}
    (hlook : t.lookup l = some (.file mode bytes)) : t.read cwd p = .ok bytes := by
  rw [read, entryAt_of_file h hl hlook]

theorem contents_of_lookup (h : p.endsInSeparator = false) {l : Location}
    (hl : t.locate cwd p = .ok (.name l)) : t.contents cwd p =
      match t.lookup l with
      | some (.file _ bytes) => bytes
      | _ => [] := by
  unfold contents read entryAt
  cases hlook : t.lookup l with
  | none => simp [hl, hlook, Except.toOption]
  | some e => cases e <;> simp [hl, hlook, h, Except.toOption]

/-- The contents of a name depend on the directories and on its own place alone. -/
theorem contents_congr {dir : Path} {name : List Char} (hn : IsName name)
    (hsame : t.SameDirectories u) (hlook : ∀ l, t.locate cwd (dir.join ⟨name⟩) = .ok (.name l) →
      u.lookup l = t.lookup l) :
    u.contents cwd (dir.join ⟨name⟩) = t.contents cwd (dir.join ⟨name⟩) := by
  have hsep := Path.endsInSeparator_join dir hn
  cases hl : t.locate cwd (dir.join ⟨name⟩) with
  | ok s =>
    cases s with
    | directory d => exact absurd hl (locate_join_ne_directory hn d)
    | name l =>
      rw [contents_of_lookup hsep hl, contents_of_lookup hsep (hsame.locate_eq_ok hl), hlook l hl]
  | error e =>
    cases hu : u.locate cwd (dir.join ⟨name⟩) with
    | ok s =>
      cases s with
      | directory d => exact absurd hu (locate_join_ne_directory hn d)
      | name l =>
        rw [hsame.symm.locate_eq_ok hu] at hl
        contradiction
    | error e' => simp [contents, read, entryAt, hl, hu, Except.toOption]

/-! ### New directories -/

/-- Every entry stands in a directory. -/
def Grounded (t : FileTree) : Prop :=
  ∀ l name, t.lookup (l ++ [name]) ≠ none → t.HasDirectory l

/-- It is enough to look at the entries of the table. -/
theorem grounded_of_entries (h : ∀ x ∈ t.entries, t.HasDirectory x.1.dropLast) : t.Grounded := by
  intro l name hthere
  rw [lookup, if_neg (by simp)] at hthere
  refine Classical.byContradiction fun hnot => hthere ?_
  apply find_eq_none_iff.mpr
  intro x hx hplace
  have hd := h x hx
  rw [hplace, List.dropLast_concat] at hd
  exact hnot hd

theorem makeDirectory_eq_ok {mode : Mode} : t.makeDirectory cwd p mode = .ok u ↔
    ∃ l, t.locate cwd p = .ok (.name l) ∧ t.lookup l = none ∧ u = t.insert l (.directory mode) := by
  unfold makeDirectory
  cases hl : t.locate cwd p with
  | error e => simp
  | ok s =>
    cases s with
    | directory d => simp
    | name k => cases hlook : t.lookup k <;> simp [hlook, eq_comm]

theorem walk_singleton {d e : Location} {last : List Char}
    (hdots : ¬ (last = ['.'] ∨ last = ['.', '.'])) : t.walk d [last] = .ok e ↔
      byteLength last ≤ nameLimit ∧ t.HasDirectory (d ++ [last]) ∧ e = d ++ [last] := by
  obtain ⟨h₁, h₂⟩ := not_or.mp hdots
  simp only [walk, h₁, h₂, if_false, HasDirectory]
  by_cases hlong : nameLimit < byteLength last
  · simp only [hlong, if_true]
    exact iff_of_false (by simp) fun h => absurd h.1 (by omega)
  · have hshort : byteLength last ≤ nameLimit := by omega
    cases hlook : t.lookup (d ++ [last]) with
    | none => simp [hlong]
    | some entry => cases entry <;> simp [hlong, hshort, eq_comm]

/-- A directory that is reached is not made again. -/
theorem makeDirectory_ne_ok {d : Location} (hw : t.walk (p.start cwd) p.names = .ok d)
    (mode : Mode) : t.makeDirectory cwd p mode ≠ .ok u := by
  intro hm
  obtain ⟨l, hl, hnone, -⟩ := makeDirectory_eq_ok.mp hm
  cases (locate_eq_ok_name.mp hl).2.1 with
  | name hn hdots hfront =>
    rw [hn] at hw
    obtain ⟨mid, hmid, hlast⟩ := walk_append_eq_ok.mp hw
    rw [hfront] at hmid
    cases hmid
    exact not_hasDirectory_of_none hnone ((walk_singleton hdots).mp hlast).2.1

/-- A directory put where nothing stands takes the place of no other. -/
theorem HasDirectory.insert_directory {k l : Location} (h : t.HasDirectory k)
    (hnone : t.lookup l = none) (mode : Mode) : (t.insert l (.directory mode)).HasDirectory k := by
  obtain ⟨m, hk⟩ := h
  have hkl : k ≠ l := by
    rintro rfl
    rw [hnone] at hk
    contradiction
  exact ⟨m, by rw [lookup_insert_of_ne t hkl, hk]⟩

/-- A new directory is reached, and was not before. -/
theorem walk_of_makeDirectory {mode : Mode} (hm : t.makeDirectory cwd p mode = .ok u) :
    ∃ l, t.lookup l = none ∧ u = t.insert l (.directory mode) ∧
      u.walk (p.start cwd) p.names = .ok l ∧ ∀ d, t.walk (p.start cwd) p.names ≠ .ok d := by
  have hnot := fun d hw => makeDirectory_ne_ok (u := u) (d := d) hw mode hm
  obtain ⟨l, hl, hnone, rfl⟩ := makeDirectory_eq_ok.mp hm
  refine ⟨l, hnone, rfl, ?_, hnot⟩
  have hne := locate_ne_nil hl
  have hgrow : ∀ k, t.HasDirectory k → (t.insert l (.directory mode)).HasDirectory k :=
    fun k hk => hk.insert_directory hnone mode
  obtain ⟨-, hleads, hshort⟩ := locate_eq_ok_name.mp hl
  cases hleads with
  | @name front last d hn hdots hfront =>
    rw [hn]
    refine walk_append_eq_ok.mpr ⟨d, walk_eq_ok_of_le hgrow hfront, (walk_singleton hdots).mpr ?_⟩
    have hlast : byteLength last ≤ nameLimit := by simpa [isTooLong] using hshort
    exact ⟨hlast, ⟨mode, lookup_insert_self t hne _⟩, rfl⟩

/-- A new directory is empty, so that a name below it has no contents, as before. -/
theorem contents_makeDirectory (hg : t.Grounded) {dir : Path} {name : List Char} (hn : IsName name)
    {mode : Mode} (hm : t.makeDirectory cwd dir mode = .ok u) :
    t.contents cwd (dir.join ⟨name⟩) = [] ∧ u.contents cwd (dir.join ⟨name⟩) = [] := by
  obtain ⟨l, hnone, rfl, hwalk, hbefore⟩ := walk_of_makeDirectory hm
  have hsep := Path.endsInSeparator_join dir hn
  constructor
  · cases ht : t.locate cwd (dir.join ⟨name⟩) with
    | error e => simp [contents, read, entryAt, ht, Except.toOption]
    | ok s =>
      cases s with
      | directory d => exact absurd ht (locate_join_ne_directory hn d)
      | name k =>
        obtain ⟨d, hd, -⟩ := locate_join hn ht
        exact absurd hd (hbefore d)
  · cases hu : (t.insert l (.directory mode)).locate cwd (dir.join ⟨name⟩) with
    | error e => simp [contents, read, entryAt, hu, Except.toOption]
    | ok s =>
      cases s with
      | directory d => exact absurd hu (locate_join_ne_directory hn d)
      | name k =>
        obtain ⟨d, hd, rfl⟩ := locate_join hn hu
        rw [hwalk] at hd
        cases hd
        have hempty : t.lookup (l ++ [name]) = none := by
          cases hsome : t.lookup (l ++ [name]) with
          | none => rfl
          | some e => exact absurd (hg l name (by simp [hsome])) (not_hasDirectory_of_none hnone)
        have hne : l ++ [name] ≠ l := by simp
        rw [contents_of_lookup hsep hu, lookup_insert_of_ne t hne, hempty]

end FileTree

end Keyrings
