import Keyrings.Proofs.Renewal

/-! Reloads as a whole, of keyrings whose paths are those that opening gives and that nothing
changes. One that succeeds with a new key leaves the keyring, its file and the rest of the tree as
the keys that were in the file at the time of the lock determine; one that fails leaves the keyring
and the tree as before, but for a stale marker. -/

namespace Keyrings

/-- Nobody else changes files. -/
structure Machine.Undisturbed (m : Machine) : Prop where
  others_eq : ∀ i t, m.others i t = t
  quiet : m.random.Quiet

theorem Machine.Undisturbed.of_eq {m m' : Machine} (h : m.Undisturbed)
    (hothers : m'.others = m.others) (hquiet : m.random.Quiet → m'.random.Quiet) :
    m'.Undisturbed :=
  ⟨fun i t => by rw [hothers, h.others_eq], hquiet h.quiet⟩

section Undisturbed

variable {m m' : Machine} {marker : Path} {policy : LockPolicy}

/-- Undisturbed, a lock has its marker in the tree that the wait began with. -/
theorem Machine.Undisturbed.acquire_ok {lock : Lock} (h : m.Undisturbed)
    (hsep : marker.endsInSeparator = false)
    (hlock : (Lock.acquire marker policy).run m = (.ok lock, m')) :
    lock = ⟨marker⟩ ∧ m.Waited m' ∧ m'.random.Quiet ∧ ∃ l v, Lock.Room marker m.cwd l m.files v ∧
      m'.files = v.insert l (.file privateFileMode []) := by
  have hstill : ∀ i t, t = m.files → m.others i t = m.files := fun i t ht => by
    rw [h.others_eq, ht]
  obtain ⟨hmarker, hwaited, t, l, v, rfl, hroom, hfiles⟩ :=
    Lock.acquire_ok hsep (P := (· = m.files)) hstill rfl hlock
  exact ⟨hmarker, hwaited, hwaited.random_eq ▸ h.quiet, l, v, hroom, hfiles⟩

theorem Machine.Undisturbed.acquire_error {fault : Fault} (h : m.Undisturbed)
    (hsep : marker.endsInSeparator = false)
    (hlock : (Lock.acquire marker policy).run m = (.error fault, m')) :
    m.Waited m' ∧ m'.files = m.files := by
  have hstill : ∀ i t, t = m.files → m.others i t = m.files := fun i t ht => by
    rw [h.others_eq, ht]
  exact Lock.acquire_error hsep (P := (· = m.files)) hstill rfl hlock

end Undisturbed

namespace Keyring

theorem refresh_run (ring : Keyring) (m : Machine) : ring.refresh.run m =
    ({ ring with keys := saved m.files m.cwd ring.file m.clock.now },
      { m with clock := m.clock.look.2 }) := by
  simp only [refresh, Routine.request, Routine.bind_eq, Routine.ask_bind, Routine.done_bind,
    Routine.run_ask, Routine.run_bind, load_run]
  rfl

theorem openIn_run (home : Path) (options : KeyringOptions) (context : List Char) (m : Machine) :
    let ring := inDirectory (home.join options.subdir) context options.policy
    (openIn home options context).run m =
      ({ ring with keys := saved m.files m.cwd ring.file m.clock.now },
        (Machine.change { m with clock := m.clock.look.2 }
          (m.files.makeDirectory m.cwd ring.directory privateDirectoryMode)).2) := by
  simp only [openIn, Routine.bind_eq, Routine.run_bind, refresh_run, Routine.request,
    Routine.ask_bind, Routine.run_ask, Machine.answer]
  rfl

/-- How a renewal ends: without the lock, without a new key, or with one. -/
inductive Renewal (ring : Keyring) (m : Machine) :
    (Except Fault Unit × Keyring) × Machine → Prop
  | refused {fault : Fault} {m' : Machine}
      (hlock : (Lock.acquire ring.marker ring.policy).run (m.answer .now).2 = (.error fault, m')) :
      Renewal ring m ((.error (lockFault fault), ring), m')
  | failed {lock : Lock} {locked m' : Machine} {fault : Fault}
      (hlock : (Lock.acquire ring.marker ring.policy).run (m.answer .now).2 = (.ok lock, locked))
      (hext : (extendFile ring.file m.clock.now).run locked = (.error fault, m')) :
      Renewal ring m ((.error fault, ring), (lock.release.run m').2)
  | added {lock : Lock} {locked m' : Machine} {keys : List Key}
      (hlock : (Lock.acquire ring.marker ring.policy).run (m.answer .now).2 = (.ok lock, locked))
      (hext : (extendFile ring.file m.clock.now).run locked = (.ok keys, m')) :
      Renewal ring m ((.ok (), { ring with keys := keys }), (lock.release.run m').2)

theorem renew_run (ring : Keyring) (m : Machine) : Renewal ring m (ring.renew.run m) := by
  simp only [renew, Routine.request, Routine.bind_eq, Routine.ask_bind, Routine.done_bind,
    Routine.run_ask, Routine.run_bind]
  have hnow : (m.answer .now).1 = m.clock.now := rfl
  rw [hnow]
  cases hlock : (Lock.acquire ring.marker ring.policy).run (m.answer .now).2 with
  | mk outcome locked =>
    cases outcome with
    | error fault => exact .refused hlock
    | ok lock =>
      simp only [Routine.run_bind]
      cases hext : (extendFile ring.file m.clock.now).run locked with
      | mk outcome m' =>
        cases outcome with
        | error fault => exact .failed hlock hext
        | ok keys => exact .added hlock hext

/-- How the search for the best key ends: with a loaded key, with the fault of its renewal, or with
what the renewal makes of the search. -/
inductive Search (ring : Keyring) (m : Machine) : (Except Fault Int32 × Keyring) × Machine → Prop
  | loaded {k : Key} (hk : findRecent ring.keys m.clock.now = some k) :
      Search ring m ((.ok k.id, ring), (m.answer .now).2)
  | failed {fault : Fault} {ring' : Keyring} {m' : Machine}
      (hnone : findRecent ring.keys m.clock.now = none)
      (hren : ring.renew.run (m.answer .now).2 = ((.error fault, ring'), m')) :
      Search ring m ((.error fault, ring'), m')
  | found {k : Key} {ring' : Keyring} {m' : Machine}
      (hnone : findRecent ring.keys m.clock.now = none)
      (hren : ring.renew.run (m.answer .now).2 = ((.ok (), ring'), m'))
      (hk : findRecent ring'.keys m'.clock.now = some k) :
      Search ring m ((.ok k.id, ring'), (m'.answer .now).2)
  | missed {ring' : Keyring} {m' : Machine}
      (hnone : findRecent ring.keys m.clock.now = none)
      (hren : ring.renew.run (m.answer .now).2 = ((.ok (), ring'), m'))
      (hk : findRecent ring'.keys m'.clock.now = none) :
      Search ring m ((.error (.failed .noRecentKey), ring'), (m'.answer .now).2)

theorem bestKey_run (ring : Keyring) (m : Machine) : Search ring m (ring.bestKey.run m) := by
  simp only [bestKey, Routine.request, Routine.bind_eq, Routine.ask_bind, Routine.done_bind,
    Routine.run_ask]
  have hnow : ∀ m : Machine, (m.answer .now).1 = m.clock.now := fun _ => rfl
  rw [hnow]
  cases hloaded : findRecent ring.keys m.clock.now with
  | some k => exact .loaded hloaded
  | none =>
    simp only [Routine.run_bind]
    cases hren : ring.renew.run (m.answer .now).2 with
    | mk outcome m' =>
      obtain ⟨outcome, ring'⟩ := outcome
      cases outcome with
      | error fault => exact .failed hloaded hren
      | ok _ =>
        simp only [Routine.run_ask, hnow]
        cases hk : findRecent ring'.keys m'.clock.now with
        | some k => exact .found hloaded hren hk
        | none => exact .missed hloaded hren hk

/-! ### Open keyrings -/

section Proper

variable {ring : Keyring}

/-- Opening gives a keyring of a context below a directory. -/
theorem proper_of_openFor {resolver : HomeResolver} {options : KeyringOptions}
    {user : Option (List Char)} {context : List Char} {m m' : Machine}
    (h : (openFor resolver options user context).run m = (.ok ring, m')) : ring.Proper := by
  unfold openFor at h
  cases hr : resolver user with
  | error fault =>
    rw [hr] at h
    cases h
  | ok home =>
    rw [hr] at h
    simp only at h
    split_ifs at h with hv
    · simp only [Routine.bind_eq, Routine.run_bind, openIn_run] at h
      cases h
      exact ⟨home.join options.subdir, context, (isOf_inDirectory hv _ _).with_keys _⟩
    · cases h

theorem Proper.with_keys (h : ring.Proper) (keys : List Key) :
    Proper { ring with keys := keys } := by
  obtain ⟨directory, context, h⟩ := h
  exact ⟨directory, context, h.with_keys keys⟩

theorem Proper.renew (h : ring.Proper) (m : Machine) : (ring.renew.run m).1.2.Proper := by
  have hren := renew_run ring m
  generalize ring.renew.run m = r at hren ⊢
  cases hren with
  | refused hlock => exact h
  | failed hlock hext => exact h
  | added hlock hext => exact h.with_keys _

theorem Proper.reload (h : ring.Proper) (addNew : Bool) (m : Machine) :
    ((ring.reload addNew).run m).1.2.Proper := by
  cases addNew with
  | true => exact h.renew m
  | false =>
    simp only [Keyring.reload, Bool.false_eq_true, if_false, Routine.bind_eq, Routine.run_bind,
      refresh_run]
    exact h.with_keys _

theorem Proper.bestKey (h : ring.Proper) (m : Machine) : (ring.bestKey.run m).1.2.Proper := by
  have hrenew := h.renew (m.answer .now).2
  have hsearch := bestKey_run ring m
  generalize ring.bestKey.run m = r at hsearch ⊢
  cases hsearch with
  | loaded hk => exact h
  | failed hnone hren => rwa [hren] at hrenew
  | found hnone hren hk => rwa [hren] at hrenew
  | missed hnone hren hk => rwa [hren] at hrenew

end Proper

section Held

variable {ring : Keyring} {directory : Path} {context : List Char} (h : ring.IsOf directory context)
  {locked m' : Machine} {cwd l : Location} {t v : FileTree} {now : Instant}
  (hcwd : locked.cwd = cwd) (hroom : Lock.Room ring.marker cwd l t v)
  (hfiles : locked.files = v.insert l (.file privateFileMode [])) (hq : locked.random.Quiet)
include h hcwd hroom hfiles hq

/-- The end of a renewal that has the lock and makes a key. -/
theorem release_of_added {keys : List Key}
    (hext : (extendFile ring.file now).run locked = (.ok keys, m')) :
    locked.Kept ((Lock.mk ring.marker).release.run m').2 ∧ ∃ key,
      ((freshKey (saved locked.files cwd ring.file now) now).run locked).1 = .ok key ∧
      keys = saved locked.files cwd ring.file now ++ [key] ∧
      Written ring.file (temporaryFor ring.file (locked.uuids locked.uuidCount))
        (KeyFile.serialize keys) cwd v ((Lock.mk ring.marker).release.run m').2.files := by
  obtain ⟨hkept, u, hu, hdone⟩ :=
    extendFile_run h.file_endsInSeparator h.temporary_endsInSeparator now locked
  rw [hext, hcwd] at hdone
  rw [hext] at hkept
  obtain ⟨key, hkey, hkeys, hwritten⟩ := hdone
  rw [hu hq, hfiles] at hwritten
  obtain ⟨w, hw, hwritten⟩ := h.written_remove hroom.locate_eq hroom.free hwritten
  rw [← hcwd, ← hkept.cwd_eq] at hw
  rw [Lock.release_of_remove hw]
  exact ⟨⟨hkept.cwd_eq, hkept.clock_eq, hkept.others_eq, hkept.quiet⟩, key, hkey, hkeys, hwritten⟩

/-- The end of a renewal that has the lock and fails. -/
theorem release_of_failed {fault : Fault}
    (hext : (extendFile ring.file now).run locked = (.error fault, m')) :
    locked.Kept ((Lock.mk ring.marker).release.run m').2 ∧
      Spared (temporaryFor ring.file (locked.uuids locked.uuidCount)) cwd v
        ((Lock.mk ring.marker).release.run m').2.files := by
  obtain ⟨hkept, u, hu, hdone⟩ :=
    extendFile_run h.file_endsInSeparator h.temporary_endsInSeparator now locked
  rw [hext] at hkept hdone
  rw [hu hq, hfiles, hcwd] at hdone
  obtain ⟨w, hw, hspared⟩ := h.spared_remove hroom.locate_eq hroom.free hdone
  rw [← hcwd, ← hkept.cwd_eq] at hw
  rw [Lock.release_of_remove hw]
  exact ⟨⟨hkept.cwd_eq, hkept.clock_eq, hkept.others_eq, hkept.quiet⟩, hspared⟩

end Held

/-! ### Success -/

/-- The outcome of a reload that added a key: `locked` is the machine at the moment the lock was
taken, and `ring'` and `m'` are what the reload leaves. -/
structure Reloaded (ring : Keyring) (m locked : Machine) (key : Key) (ring' : Keyring)
    (m' : Machine) : Prop where
  lock_taken : (Lock.acquire ring.marker ring.policy).run (m.answer .now).2 =
    (.ok ⟨ring.marker⟩, locked)
  key_made : ((freshKey (saved locked.files locked.cwd ring.file m.clock.now) m.clock.now).run
    locked).1 = .ok key
  key_fresh : IsFresh (saved locked.files locked.cwd ring.file m.clock.now) m.clock.now key
  ring_eq : ring' =
    { ring with keys := saved locked.files locked.cwd ring.file m.clock.now ++ [key] }
  file_written : m'.files.entryAt m'.cwd ring.file =
    .ok (.file privateFileMode (KeyFile.serialize ring'.keys))
  marker_gone : m'.files.entryAt m'.cwd ring.marker = .error .notFound
  temporary_gone : m'.files.entryAt m'.cwd
    (temporaryFor ring.file (m.uuids m.uuidCount)) = .error .notFound
  elsewhere : ∀ l, m'.files.locate m'.cwd ring.file ≠ .ok (.name l) →
    m'.files.locate m'.cwd ring.marker ≠ .ok (.name l) →
    m'.files.lookup l = locked.files.lookup l
  looked_once : m'.clock.looks = m.clock.looks + 1

/-- A reload that adds a key is exact for every tree, and every change that others make to it while
the reload waits for the lock; a reload that adds none always succeeds and looks at the clock and
the file only. -/
theorem reload_exact {ring : Keyring} {m : Machine} (h : ring.Proper) (hq : m.random.Quiet) :
    (((ring.reload true).run m).1.1 = .ok () → ∃ locked key,
      Reloaded ring m locked key ((ring.reload true).run m).1.2 ((ring.reload true).run m).2) ∧
    (ring.reload false).run m =
      ((.ok (), { ring with keys := saved m.files m.cwd ring.file m.clock.now }),
        { m with clock := m.clock.look.2 }) := by
  obtain ⟨directory, context, h⟩ := h
  constructor
  · intro hok
    have hrun : (ring.reload true).run m = ring.renew.run m := rfl
    rw [hrun] at hok ⊢
    have hren := renew_run ring m
    generalize ring.renew.run m = r at hok hren ⊢
    cases hren with
    | refused hlock => cases hok
    | failed hlock hext => cases hok
    | @added lock locked m' keys hlock hext =>
      obtain ⟨rfl, hwaited, t, l, v, -, hroom, hfiles⟩ :=
        Lock.acquire_ok h.marker_endsInSeparator (P := fun _ => True) (fun _ _ _ => trivial)
          trivial hlock
      have hquiet : locked.random.Quiet := hwaited.random_eq ▸ hq
      rw [← hwaited.cwd_eq] at hroom
      obtain ⟨hkept, key, hkey, hkeys, hwritten⟩ :=
        release_of_added h rfl hroom hfiles hquiet hext
      have huuid : m.uuids m.uuidCount = locked.uuids locked.uuidCount := by
        rw [hwaited.uuids_eq, hwaited.uuidCount_eq]
        rfl
      obtain ⟨hfile, hmarker, htemporary, helse⟩ :=
        h.written_shows hroom.locate_eq hroom.free hwritten
      have hgone : ∀ l', ((Lock.mk ring.marker).release.run m').2.files.locate locked.cwd
          ring.marker ≠ .ok (.name l') → l' ≠ l := by
        rintro l' hl' rfl
        exact hl' (hwritten.sameDirectories.locate_eq_ok hroom.locate_eq)
      refine ⟨locked, key, hlock, hkey, (freshKey_run _ _ _).2 key hkey, by rw [hkeys], ?_, ?_, ?_,
        ?_, ?_⟩
      · rw [hkept.cwd_eq, hfile]
      · rw [hkept.cwd_eq, hmarker]
      · rw [hkept.cwd_eq, huuid, htemporary]
      · rw [hkept.cwd_eq]
        intro l' hl' hm'
        rw [helse l' hl', hfiles, FileTree.lookup_insert_of_ne v (hgone l' hm')]
      · rw [hkept.clock_eq, hwaited.looks_eq]
        rfl
  · simp only [reload, Bool.false_eq_true, if_false, Routine.bind_eq, Routine.run_bind, refresh_run]
    rfl

/-- A keyring in a directory at the root, for which a marker is waited for once. -/
def sampleRing : Keyring := inDirectory ⟨['/', 'h']⟩ ['c'] ⟨1, Duration.ofMillis 5⟩

theorem sampleRing_proper : sampleRing.Proper :=
  ⟨_, _, isOf_inDirectory (by decide) _ _⟩

/-- A machine with some entries, on which others do the same at the end of each sleep. -/
def sampleMachine (entries : List (Location × Entry)) (others : FileTree → FileTree) : Machine where
  files := ⟨entries⟩
  clock := { now := 1000 }
  random := { after := { outcome := .ok [5, 0, 0, 0] } }
  uuids n := ⟨BitVec.ofNat 128 n⟩
  others _ := others

/-- Somebody else has the lock, and gives it back after saving a key. -/
def contended : Machine :=
  sampleMachine [([['h']], .directory 0o700), ([['h'], "c.lock".toList], .file 0o600 [])]
    fun t => (t.insert [['h'], ['c']] (.file 0o600 (KeyFile.serialize [⟨7, 990, [171]⟩]))).erase
      [['h'], "c.lock".toList]

theorem reload_exact_contended : sampleRing.Proper ∧ contended.random.Quiet ∧
    ((sampleRing.reload true).run contended).1.1 = .ok () ∧ ∃ locked key,
      Reloaded sampleRing contended locked key ((sampleRing.reload true).run contended).1.2
        ((sampleRing.reload true).run contended).2 := by
  have hq : contended.random.Quiet := ⟨by simp [contended, sampleMachine], fun _ => rfl⟩
  have hok : ((sampleRing.reload true).run contended).1.1 = .ok () := rfl
  exact ⟨sampleRing_proper, hq, hok, (reload_exact sampleRing_proper hq).1 hok⟩

/-! ### Failure -/

/-- The outcome of a reload that failed: everything is as before, but for a stale marker if the lock
had been taken. -/
structure Restored (ring : Keyring) (m : Machine) (ring' : Keyring) (m' : Machine) : Prop where
  ring_eq : ring' = ring
  files_eq : m'.files = m.files ∨ ∃ lock locked l mode bytes,
    (Lock.acquire ring.marker ring.policy).run (m.answer .now).2 = (.ok lock, locked) ∧
    m.files.locate m.cwd ring.marker = .ok (.name l) ∧
    m.files.lookup l = some (.file mode bytes) ∧ m'.files = m.files.erase l
  file_eq : ∀ k, m.files.locate m.cwd ring.file = .ok (.name k) →
    m'.files.locate m.cwd ring.file = .ok (.name k) ∧ m'.files.lookup k = m.files.lookup k

/-- No name of an entry ends with an identifier as those of temporary files do. -/
def Lacks (t : FileTree) (u : Uuid) : Prop :=
  ∀ x ∈ t.entries, ¬ temporaryEnding u <:+ x.1.getLastD []

/-- Where the identifier is new there is nothing else to remove. -/
theorem IsOf.spared_eq {ring : Keyring} {directory : Path} {context : List Char}
    (h : ring.IsOf directory context) {t v w : FileTree} {cwd : Location} {u : Uuid}
    (hnew : Lacks t u) (hv : ∀ k, v.lookup k ≠ none → t.lookup k ≠ none)
    (hs : Spared (temporaryFor ring.file u) cwd v w) : w = v := by
  rcases hs with hw | ⟨n, mode, bytes, hn, hthere, -⟩
  · exact hw
  · rw [h.temporary_join] at hn
    obtain ⟨d, -, rfl⟩ := FileTree.locate_join (h.isName_temporary u) hn
    have hnone : t.lookup (d ++ [context ++ temporaryEnding u]) = none := by
      rw [FileTree.lookup, if_neg (by simp), FileTree.find_eq_none_iff]
      intro x hx hplace
      have hsuffix : temporaryEnding u <:+ x.1.getLastD [] := by
        rw [hplace]
        simp
      exact hnew x hx hsuffix
    exact absurd hnone (hv _ (by simp [hthere]))

theorem renew_restores {ring : Keyring} {m : Machine} {fault : Fault} (h : ring.Proper)
    (hu : m.Undisturbed) (hnew : Lacks m.files (m.uuids m.uuidCount))
    (herr : (ring.renew.run m).1.1 = .error fault) :
    Restored ring m (ring.renew.run m).1.2 (ring.renew.run m).2 := by
  obtain ⟨directory, context, h⟩ := h
  have hlook : (m.answer .now).2.Undisturbed := ⟨hu.others_eq, hu.quiet⟩
  have hren := renew_run ring m
  generalize ring.renew.run m = r at herr hren ⊢
  cases hren with
  | refused hlock =>
    have hfiles := (hlook.acquire_error h.marker_endsInSeparator hlock).2
    refine ⟨rfl, Or.inl hfiles, fun k hk => ?_⟩
    rw [hfiles]
    exact ⟨hk, rfl⟩
  | added hlock hext => cases herr
  | @failed lock locked m' fault hlock hext =>
    obtain ⟨rfl, hwaited, hquiet, l, v, hroom, hfiles⟩ :=
      hlook.acquire_ok h.marker_endsInSeparator hlock
    obtain ⟨-, hspared⟩ := release_of_failed h hwaited.cwd_eq hroom hfiles hquiet hext
    rw [hwaited.uuids_eq, hwaited.uuidCount_eq] at hspared
    have hfinal := h.spared_eq hnew (fun k hk => hroom.lookup_ne_none hk) hspared
    rcases hroom.stale with rfl | ⟨mode, bytes, hl, hthere, rfl⟩
    · refine ⟨rfl, Or.inl hfinal, fun k hk => ?_⟩
      rw [hfinal]
      exact ⟨hk, rfl⟩
    · refine ⟨rfl, Or.inr ⟨_, locked, l, mode, bytes, hlock, hl, hthere, hfinal⟩, fun k hk => ?_⟩
      have hsame := FileTree.sameDirectories_erase (FileTree.not_hasDirectory_of_file hthere)
      rw [hfinal]
      exact ⟨hsame.locate_eq_ok hk,
        FileTree.lookup_erase_of_ne m.files (h.file_ne_marker hk hl)⟩

/-- A reload that fails, for whatever reason, is undone, and so is the search for a key that fails
with the reload in it. -/
theorem failure_restores {ring : Keyring} {m : Machine} (h : ring.Proper) (hu : m.Undisturbed)
    (hnew : Lacks m.files (m.uuids m.uuidCount)) :
    (∀ fault, ((ring.reload true).run m).1.1 = .error fault →
      Restored ring m ((ring.reload true).run m).1.2 ((ring.reload true).run m).2) ∧
    ∀ fault, (ring.bestKey.run m).1.1 = .error fault →
      ((ring.reload true).run (m.answer .now).2).1.1 = .error fault →
      Restored ring (m.answer .now).2 (ring.bestKey.run m).1.2 (ring.bestKey.run m).2 := by
  constructor
  · exact fun fault herr => renew_restores h hu hnew herr
  · intro fault hbest herr
    have hrestored := renew_restores h (m := (m.answer .now).2) ⟨hu.others_eq, hu.quiet⟩ hnew herr
    have hrun : (ring.reload true).run (m.answer .now).2 = ring.renew.run (m.answer .now).2 := rfl
    rw [hrun] at herr
    have hsearch := bestKey_run ring m
    generalize ring.bestKey.run m = r at hbest hsearch ⊢
    cases hsearch with
    | loaded hk => cases hbest
    | failed hnone hren =>
      rw [hren] at hrestored
      exact hrestored
    | found hnone hren hk => cases hbest
    | missed hnone hren hk =>
      rw [hren] at herr
      cases herr

/-- A directory stands in the place of the file, and an abandoned marker beside it. -/
def blocked : Machine :=
  sampleMachine [([['h']], .directory 0o700), ([['h'], ['c']], .directory 0o700),
    ([['h'], "c.lock".toList], .file 0o600 [])] id

theorem failure_restores_blocked : blocked.Undisturbed ∧
    Lacks blocked.files (blocked.uuids blocked.uuidCount) ∧
    ((sampleRing.reload true).run blocked).1.1 = .error (.file .isDirectory) ∧
    Restored sampleRing blocked ((sampleRing.reload true).run blocked).1.2
      ((sampleRing.reload true).run blocked).2 ∧
    Restored sampleRing (blocked.answer .now).2 (sampleRing.bestKey.run blocked).1.2
      (sampleRing.bestKey.run blocked).2 := by
  have hu : blocked.Undisturbed :=
    ⟨fun _ _ => rfl, by simp [blocked, sampleMachine], fun _ => rfl⟩
  have hnew : Lacks blocked.files (blocked.uuids blocked.uuidCount) := by
    unfold Lacks
    decide +kernel
  obtain ⟨hreload, hbest⟩ := failure_restores sampleRing_proper hu hnew
  exact ⟨hu, hnew, rfl, hreload (.file .isDirectory) rfl, hbest (.file .isDirectory) rfl rfl⟩

end Keyring

end Keyrings
