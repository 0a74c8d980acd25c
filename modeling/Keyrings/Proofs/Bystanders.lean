import Keyrings.Proofs.Reload

/-! A keyring beside others that work on the same tree. The others may do anything to it, while the
keyring sleeps and while it draws, as long as the tree stays sound and the keyring's file keeps its
contents. Then every step that is not the replacement of the file keeps the contents too, so that
what a renewal wrote is what the next one reads. -/

namespace Keyrings

namespace FileTree

variable {t u v : FileTree} {cwd : Location} {p : Path}

/-! ### Sound trees -/

/-- Every entry stands in a directory, and so does the start of a walk. -/
structure Sound (t : FileTree) (start : Location) : Prop where
  grounded : t.Grounded
  start : t.HasDirectory start

/-- Walking in a grounded tree leads to directories only, also on the way up. -/
theorem Grounded.hasDirectory_walk (h : t.Grounded) {here there : Location}
    {names : List (List Char)} (hs : t.HasDirectory here) (hw : t.walk here names = .ok there) :
    t.HasDirectory there := by
  induction names generalizing here with
  | nil =>
    cases hw
    exact hs
  | cons x names ih =>
    rw [walk] at hw
    split_ifs at hw
    · exact ih hs hw
    · -- The way up leads from an entry to the directory that it stands in.
      refine ih ?_ hw
      rcases List.eq_nil_or_concat here with rfl | ⟨front, last, rfl⟩
      · exact hs
      · obtain ⟨mode, hmode⟩ := hs
        rw [List.concat_eq_append] at hmode ⊢
        rw [List.dropLast_concat]
        exact h front last (by simp [hmode])
    · split at hw
      · rename_i mode hlook
        exact ih ⟨mode, hlook⟩ hw
      · cases hw
      · cases hw

section Place

variable {dir : Path} {name : List Char} {start l : Location}

/-- A file put below a directory leaves a sound tree sound. -/
theorem Sound.insert_file (h : t.Sound start) {parent : Location} (hparent : t.HasDirectory parent)
    (hl : l = parent ++ [name]) (hplain : ¬ t.HasDirectory l) (mode : Mode) (bytes : List UInt8) :
    (t.insert l (.file mode bytes)).Sound start where
  grounded k last hthere := by
    have hsame := sameDirectories_insert hplain mode bytes
    refine (hsame k).mp ?_
    by_cases hk : k ++ [last] = l
    · rw [hl] at hk
      exact (List.append_inj' hk rfl).1 ▸ hparent
    · rw [lookup_insert_of_ne t hk] at hthere
      exact h.grounded k last hthere
  start := (sameDirectories_insert hplain mode bytes start).mp h.start

theorem Sound.erase_file (h : t.Sound start) {mode : Mode} {bytes : List UInt8}
    (hfile : t.lookup l = some (.file mode bytes)) : (t.erase l).Sound start where
  grounded k last hthere := by
    have hplain := not_hasDirectory_of_file hfile
    refine (sameDirectories_erase hplain k).mp (h.grounded k last ?_)
    by_cases hk : k ++ [last] = l
    · rw [hk, hfile]
      simp
    · rwa [lookup_erase_of_ne t hk] at hthere
  start := (sameDirectories_erase (not_hasDirectory_of_file hfile) start).mp h.start

theorem Sound.makeDirectory {mode : Mode} (h : t.Sound (p.start cwd))
    (hm : t.makeDirectory cwd p mode = .ok u) {start : Location} (hs : t.HasDirectory start) :
    u.Sound start := by
  obtain ⟨l, hl, hnone, rfl⟩ := makeDirectory_eq_ok.mp hm
  refine ⟨fun k last hthere => HasDirectory.insert_directory ?_ hnone mode,
    hs.insert_directory hnone mode⟩
  by_cases hk : k ++ [last] = l
  · obtain ⟨-, hleads, -⟩ := locate_eq_ok_name.mp hl
    cases hleads with
    | @name front x d hn hdots hfront =>
      exact (List.append_inj' hk rfl).1 ▸ h.grounded.hasDirectory_walk h.start hfront
  · rw [lookup_insert_of_ne t hk] at hthere
    exact h.grounded k last hthere

end Place

/-! ### Changes that leave a file alone -/

/-- A change leaves the file of a path alone: a sound tree stays sound, and the contents stay. -/
def Keeps (cwd : Location) (p : Path) (t u : FileTree) : Prop :=
  t.Sound (p.start cwd) → u.Sound (p.start cwd) ∧ u.contents cwd p = t.contents cwd p

theorem Keeps.refl (cwd : Location) (p : Path) (t : FileTree) : Keeps cwd p t t := fun h => ⟨h, rfl⟩

theorem Keeps.trans (h : Keeps cwd p t u) (h' : Keeps cwd p u v) : Keeps cwd p t v := by
  intro ht
  obtain ⟨hu, hcontents⟩ := h ht
  obtain ⟨hv, hcontents'⟩ := h' hu
  exact ⟨hv, hcontents'.trans hcontents⟩

section Names

variable {dir : Path} {name other : List Char} {l : Location} (hn : IsName name)
include hn

theorem start_join : (dir.join ⟨name⟩).start cwd = dir.start cwd := by
  rw [Path.start, Path.isAbsolute_join dir hn, Path.start]

/-- The place of a name is below a directory, in a sound tree. -/
theorem Sound.parent (h : t.Sound (dir.start cwd))
    (hl : t.locate cwd (dir.join ⟨name⟩) = .ok (.name l)) :
    ∃ d, t.HasDirectory d ∧ l = d ++ [name] := by
  obtain ⟨d, hd, hl⟩ := locate_join hn hl
  exact ⟨d, h.grounded.hasDirectory_walk h.start hd, hl⟩

variable (ho : IsName other) (hne : name ≠ other)
include ho hne

theorem keeps_insert (hl : t.locate cwd (dir.join ⟨other⟩) = .ok (.name l))
    (hplain : ¬ t.HasDirectory l) (mode : Mode) (bytes : List UInt8) :
    Keeps cwd (dir.join ⟨name⟩) t (t.insert l (.file mode bytes)) := by
  intro ht
  rw [start_join hn] at ht ⊢
  obtain ⟨d, hd, hplace⟩ := ht.parent ho hl
  constructor
  · exact ht.insert_file hd hplace hplain mode bytes
  · apply contents_congr hn (sameDirectories_insert hplain mode bytes)
    intro k hk
    exact lookup_insert_of_ne t (locate_join_ne hn ho hne hk hl) _

theorem keeps_erase (hl : t.locate cwd (dir.join ⟨other⟩) = .ok (.name l)) {mode : Mode}
    {bytes : List UInt8} (hfile : t.lookup l = some (.file mode bytes)) :
    Keeps cwd (dir.join ⟨name⟩) t (t.erase l) := by
  intro ht
  constructor
  · exact ht.erase_file hfile
  · apply contents_congr hn (sameDirectories_erase (not_hasDirectory_of_file hfile))
    intro k hk
    exact lookup_erase_of_ne t (locate_join_ne hn ho hne hk hl)

theorem keeps_create {mode : Mode} (hc : t.create cwd (dir.join ⟨other⟩) mode = .ok u) :
    Keeps cwd (dir.join ⟨name⟩) t u := by
  obtain ⟨k, hk, hnone, rfl⟩ := (create_eq_ok (Path.endsInSeparator_join dir ho)).mp hc
  exact keeps_insert hn ho hne hk (not_hasDirectory_of_none hnone) mode []

theorem keeps_remove (hr : t.remove cwd (dir.join ⟨other⟩) = .ok u) :
    Keeps cwd (dir.join ⟨name⟩) t u := by
  obtain ⟨k, mode, old, hk, hfile, rfl⟩ :=
    (remove_eq_ok (Path.endsInSeparator_join dir ho)).mp hr
  exact keeps_erase hn ho hne hk hfile

end Names

/-- A new directory has no file yet, and the old tree had none in its place. -/
theorem keeps_makeDirectory {dir : Path} {name : List Char} (hn : IsName name) {mode : Mode}
    (hm : t.makeDirectory cwd dir mode = .ok u) : Keeps cwd (dir.join ⟨name⟩) t u := by
  intro ht
  rw [start_join hn] at ht ⊢
  obtain ⟨hbefore, hafter⟩ := contents_makeDirectory ht.grounded hn hm
  exact ⟨ht.makeDirectory hm ht.start, by rw [hbefore, hafter]⟩

end FileTree

/-! ### Machines on which a file is left alone -/

/-- The file of a path has some contents on a sound tree, and others leave it alone whenever the
machine sleeps or draws. -/
structure Machine.Shows (p : Path) (cwd : Location) (bytes : List UInt8) (m : Machine) : Prop where
  cwd_eq : m.cwd = cwd
  sound : m.files.Sound (p.start cwd)
  contents_eq : m.files.contents cwd p = bytes
  others : ∀ i t, FileTree.Keeps cwd p t (m.others i t)
  draws : ∀ d : Draw, d ∈ m.random.script ∨ d = m.random.after →
    ∀ t, FileTree.Keeps cwd p t (d.before t)

namespace Machine.Shows

variable {p : Path} {cwd : Location} {bytes : List UInt8} {m m' : Machine}
  (h : m.Shows p cwd bytes)
include h

/-- What others will do depends neither on the tree nor on the clock or the identifiers. -/
theorem of_contents {bytes' : List UInt8} (hsound : m'.files.Sound (p.start cwd))
    (hcontents : m'.files.contents cwd p = bytes') (hcwd : m'.cwd = m.cwd)
    (hothers : m'.others = m.others) (hrandom : m'.random = m.random) :
    m'.Shows p cwd bytes' where
  cwd_eq := hcwd.trans h.cwd_eq
  sound := hsound
  contents_eq := hcontents
  others i t := by
    rw [hothers]
    exact h.others i t
  draws d hd t := by
    rw [hrandom] at hd
    exact h.draws d hd t

theorem of_keeps (hk : FileTree.Keeps cwd p m.files m'.files) (hcwd : m'.cwd = m.cwd)
    (hothers : m'.others = m.others) (hrandom : m'.random = m.random) : m'.Shows p cwd bytes := by
  obtain ⟨hsound, hcontents⟩ := hk h.sound
  exact h.of_contents hsound (hcontents.trans h.contents_eq) hcwd hothers hrandom

theorem look : (m.answer .now).2.Shows p cwd bytes :=
  h.of_keeps (FileTree.Keeps.refl cwd p m.files) rfl rfl rfl

/-- A draw takes the next of the source, and leaves the rest of it. -/
theorem draw (count : Nat) : (m.answer (.draw count)).2.Shows p cwd bytes := by
  have hnext : (m.random.next.1 ∈ m.random.script ∨ m.random.next.1 = m.random.after) ∧
      m.random.next.2.script ⊆ m.random.script ∧ m.random.next.2.after = m.random.after := by
    unfold Randomness.next
    split <;> simp_all
  obtain ⟨hdraw, hscript, hafter⟩ := hnext
  obtain ⟨hsound, hcontents⟩ := h.draws _ hdraw m.files h.sound
  refine ⟨h.cwd_eq, hsound, hcontents.trans h.contents_eq, h.others, fun d hd => h.draws d ?_⟩
  rcases hd with hd | hd
  · exact Or.inl (hscript hd)
  · exact Or.inr (hd.trans hafter)

theorem drawId (existing : List Key) (n : Nat) :
    ((drawId existing n).run m).2.Shows p cwd bytes := by
  induction n generalizing m with
  | zero => exact h
  | succ n ih =>
    have hdrawn := h.draw idLength
    simp only [Keyrings.drawId, Routine.request, Routine.bind_eq, Routine.ask_bind,
      Routine.done_bind, Routine.run_ask]
    cases (m.answer (.draw idLength)).1 with
    | error fault => exact hdrawn
    | ok block =>
      simp only
      cases usableId? existing block.bytes with
      | none => exact ih hdrawn
      | some id => exact hdrawn

theorem freshKey (existing : List Key) (now : Instant) :
    ((freshKey existing now).run m).2.Shows p cwd bytes := by
  have hid := h.drawId existing maxIdAttempts
  simp only [Keyrings.freshKey, Routine.bind_eq, Routine.run_bind]
  cases ((Keyrings.drawId existing maxIdAttempts).run m).1 with
  | error fault => exact hid
  | ok id =>
    have hsecret := hid.draw secretLength
    simp only [Routine.request, Routine.ask_bind, Routine.done_bind, Routine.run_ask]
    cases (((Keyrings.drawId existing maxIdAttempts).run m).2.answer (.draw secretLength)).1 with
    | error fault => exact hsecret
    | ok secret => exact hsecret

end Machine.Shows

/-! ### Renewals -/

namespace Keyring

section Renew

variable {ring : Keyring} {directory : Path} {context : List Char}
  (hof : ring.IsOf directory context) {cwd : Location} {t u : FileTree} {bytes : List UInt8}
  {m : Machine}
include hof

theorem IsOf.keeps_create {mode : Mode} (h : t.create cwd ring.marker mode = .ok u) :
    FileTree.Keeps cwd ring.file t u := by
  rw [hof.marker_join] at h
  rw [hof.file_eq]
  exact FileTree.keeps_create hof.isName hof.isName_marker (ne_append_markerEnding context) h

theorem IsOf.keeps_remove (h : t.remove cwd ring.marker = .ok u) :
    FileTree.Keeps cwd ring.file t u := by
  rw [hof.marker_join] at h
  rw [hof.file_eq]
  exact FileTree.keeps_remove hof.isName hof.isName_marker (ne_append_markerEnding context) h

theorem IsOf.keeps_taken {outcome : Except Fault Lock}
    (h : Lock.Taken t cwd ring.marker outcome u) : FileTree.Keeps cwd ring.file t u := by
  cases h with
  | free hc => exact hof.keeps_create hc
  | stale hr hc => exact (hof.keeps_remove hr).trans (hof.keeps_create hc)
  | stuck e => exact FileTree.Keeps.refl _ _ _

theorem IsOf.keeps_spared {x : Uuid}
    (h : Spared (temporaryFor ring.file x) cwd t u) :
    FileTree.Keeps cwd ring.file t u := by
  rcases h with rfl | ⟨l, mode, old, hl, hfile, rfl⟩
  · exact FileTree.Keeps.refl _ _ _
  · rw [hof.temporary_join] at hl
    rw [hof.file_eq]
    exact FileTree.keeps_erase hof.isName (hof.isName_temporary x)
      (ne_append_temporaryEnding context x) hl hfile

/-- The wait for the lock leaves the file alone, however it ends. -/
theorem IsOf.shows_acquire (h : m.Shows ring.file cwd bytes) (policy : LockPolicy) :
    ((Lock.acquire ring.marker policy).run m).2.Shows ring.file cwd bytes := by
  -- What is known of the tree at each attempt is that the sleeps before it did the file no harm.
  obtain ⟨hwaited, t, ht, htaken⟩ := Lock.attempt_run hof.marker_endsInSeparator policy.timeout
    policy.maxTimeouts (P := FileTree.Keeps cwd ring.file m.files)
    (fun i t hk => hk.trans (h.others i t)) (FileTree.Keeps.refl _ _ _)
  rw [h.cwd_eq] at htaken
  exact h.of_keeps (ht.trans (hof.keeps_taken htaken)) hwaited.cwd_eq hwaited.others_eq
    hwaited.random_eq

theorem IsOf.shows_release (h : m.Shows ring.file cwd bytes) :
    ((Lock.mk ring.marker).release.run m).2.Shows ring.file cwd bytes := by
  rw [Lock.release_run, h.cwd_eq]
  cases hr : m.files.remove cwd ring.marker with
  | error e => exact h
  | ok u => exact h.of_keeps (hof.keeps_remove hr) rfl rfl rfl

/-- A replacement that succeeds has filled the file, and one that fails has left it alone. -/
theorem IsOf.shows_replace (h : m.Shows ring.file cwd bytes) (new : List UInt8) :
    match ((replace ring.file new).run m).1 with
    | .ok _ => ((replace ring.file new).run m).2.Shows ring.file cwd new
    | .error _ => ((replace ring.file new).run m).2.Shows ring.file cwd bytes := by
  obtain ⟨u, hu, hdone⟩ :=
    replace_run hof.file_endsInSeparator hof.temporary_endsInSeparator new m
  rw [hu]
  rw [h.cwd_eq] at hdone
  cases hr : ((replace ring.file new).run m).1 with
  | error e =>
    rw [hr] at hdone
    exact h.of_keeps (hof.keeps_spared hdone) rfl rfl rfl
  | ok _ =>
    rw [hr] at hdone
    have hcontents : u.contents cwd ring.file = new := by
      rw [FileTree.contents, hof.read_of_written hdone]
      rfl
    refine h.of_contents ?_ hcontents rfl rfl rfl
    obtain ⟨k, l, hk, -, -, hplain, rfl⟩ := hdone
    have hsound := h.sound
    rw [hof.file_eq, FileTree.start_join hof.isName] at hsound ⊢
    rw [hof.file_eq] at hk
    obtain ⟨d, hd, hplace⟩ := hsound.parent hof.isName hk
    exact hsound.insert_file hd hplace hplain privateFileMode new

/-- What is added to the file is one fresh key, after those that are read from it. -/
theorem IsOf.shows_extendFile (h : m.Shows ring.file cwd bytes) (now : Instant) :
    match ((extendFile ring.file now).run m).1 with
    | .ok keys => ∃ key, IsFresh (KeyFile.parse bytes now) now key ∧
        keys = KeyFile.parse bytes now ++ [key] ∧
        ((extendFile ring.file now).run m).2.Shows ring.file cwd (KeyFile.serialize keys)
    | .error _ => ((extendFile ring.file now).run m).2.Shows ring.file cwd bytes := by
  have hsaved : saved m.files m.cwd ring.file now = KeyFile.parse bytes now := by
    rw [saved, h.cwd_eq, h.contents_eq]
  simp only [extendFile, Routine.bind_eq, Routine.run_bind, load_run, hsaved]
  have hdrawn := h.freshKey (KeyFile.parse bytes now) now
  have hfresh := (freshKey_run (KeyFile.parse bytes now) now m).2
  cases hr : (freshKey (KeyFile.parse bytes now) now).run m with
  | mk outcome drawn =>
    rw [hr] at hdrawn hfresh
    cases outcome with
    | error fault => exact hdrawn
    | ok key =>
      have hreplaced :=
        hof.shows_replace hdrawn (KeyFile.serialize (KeyFile.parse bytes now ++ [key]))
      simp only [Routine.run_bind]
      cases hw : (replace ring.file (KeyFile.serialize (KeyFile.parse bytes now ++ [key]))).run
          drawn with
      | mk outcome replaced =>
        rw [hw] at hreplaced
        cases outcome with
        | error e => exact hreplaced
        | ok _ => exact ⟨key, hfresh key rfl, rfl, hreplaced⟩

/-- A renewal that succeeds has put the keys of the file and a fresh one into the file, and into the
keyring; one that fails has left both alone. -/
theorem IsOf.shows_renew (h : m.Shows ring.file cwd bytes) :
    match (ring.renew.run m).1 with
    | (.ok _, ring') => ∃ key, IsFresh (KeyFile.parse bytes m.clock.now) m.clock.now key ∧
        ring' = { ring with keys := KeyFile.parse bytes m.clock.now ++ [key] } ∧
        (ring.renew.run m).2.Shows ring.file cwd (KeyFile.serialize ring'.keys)
    | (.error _, ring') => ring' = ring ∧ (ring.renew.run m).2.Shows ring.file cwd bytes := by
  have hlocked := hof.shows_acquire h.look ring.policy
  have hren := renew_run ring m
  generalize ring.renew.run m = r at hren ⊢
  cases hren with
  | @refused fault m' hlock =>
    rw [hlock] at hlocked
    exact ⟨rfl, hlocked⟩
  | @failed lock locked m' fault hlock hext =>
    rw [hlock] at hlocked
    have hextended := hof.shows_extendFile hlocked m.clock.now
    rw [hext] at hextended
    rw [Lock.acquire_eq hof.marker_endsInSeparator hlock]
    exact ⟨rfl, hof.shows_release hextended⟩
  | @added lock locked m' keys hlock hext =>
    rw [hlock] at hlocked
    have hextended := hof.shows_extendFile hlocked m.clock.now
    rw [hext] at hextended
    obtain ⟨key, hfresh, hkeys, hwritten⟩ := hextended
    rw [Lock.acquire_eq hof.marker_endsInSeparator hlock]
    exact ⟨key, hfresh, by rw [hkeys], hof.shows_release hwritten⟩

end Renew

end Keyring

end Keyrings
