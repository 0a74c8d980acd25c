import Keyrings.Proofs.Reload
import Keyrings.Proofs.Window

/-! The history of a keyring's file. It is the list of all keys that were ever put into the file, in
their order; at any time the file holds those of them that are still kept, and a keyring holds what
was kept of a first part of the list when it was loaded. So whatever an older keyring finds, a newer
one finds in the same place. -/

namespace Keyrings

/-! ### Lists of keys over time -/

/-- The keys come from 1970 or later, and no further from ahead of the time `now` than is
accepted. -/
def Timely (keys : List Key) (now : Instant) : Prop :=
  ∀ k ∈ keys, 0 ≤ k.created.toInt ∧ k.created.toInt ≤ now.toInt + aheadBy

theorem Timely.of_le {keys : List Key} {t now : Instant} (h : Timely keys t)
    (ht : t.toInt ≤ now.toInt) : Timely keys now := by
  intro k hk
  have := h k hk
  omega

theorem Timely.append {keys : List Key} {k : Key} {now : Instant} (h : Timely keys now)
    (hk : k.created = now) (h0 : 0 ≤ now.toInt) : Timely (keys ++ [k]) now := by
  intro j hj
  rcases List.mem_append.mp hj with hj | hj
  · exact h j hj
  · rw [List.mem_singleton.mp hj, hk]
    unfold aheadBy
    omega

theorem kept_append (keys more : List Key) (now : Instant) :
    kept (keys ++ more) now = kept keys now ++ kept more now :=
  List.filter_append ..

/-- What was dropped earlier would be dropped later too. -/
theorem kept_kept {keys : List Key} {t now : Instant} (h : Timely keys t)
    (ht : t.toInt ≤ now.toInt) : kept (kept keys t) now = kept keys now := by
  unfold kept
  rw [List.filter_filter]
  refine List.filter_congr fun k hk => ?_
  cases hn : k.isWithinLifetime now with
  | false => rfl
  | true => rw [Key.isWithinLifetime_of_le ht (h k hk).2 hn, Bool.and_self]

/-- A key that is made is kept at first. -/
theorem kept_append_fresh {keys : List Key} {k : Key} {now : Instant} (hk : k.created = now)
    (h0 : 0 ≤ now.toInt) : kept (keys ++ [k]) now = kept keys now ++ [k] := by
  have hlife : k.isWithinLifetime now = true := by
    rw [← hk] at h0 ⊢
    exact Key.isWithinLifetime_created h0
  have hone : kept [k] now = [k] := by simp [kept, hlife]
  rw [kept_append, hone]

/-- A recent key has not been dropped. -/
theorem findRecent_kept {keys : List Key} {t now : Instant} (h : Timely keys t)
    (ht : t.toInt ≤ now.toInt) : findRecent (kept keys t) now = findRecent keys now := by
  unfold findRecent kept
  rw [← List.head?_filter, ← List.head?_filter, List.filter_filter]
  congr 1
  refine List.filter_congr fun k hk => ?_
  cases hn : k.isRecent now with
  | false => rfl
  | true =>
    have hlife := Key.isWithinLifetime_of_isRecent (Key.isRecent_of_le ht hn) (h k hk).1
      (h k hk).2 (by unfold keptFor recentFor; omega)
    rw [hlife, Bool.and_self]

theorem isRecent_of_findRecent {keys : List Key} {now : Instant} {k : Key}
    (hk : findRecent keys now = some k) : k.isRecent now = true := by
  unfold findRecent at hk
  simpa using List.find?_some hk

theorem findRecent_of_more {keys more : List Key} {now : Instant} {k : Key} (h : keys <+: more)
    (hk : findRecent keys now = some k) : findRecent more now = some k :=
  h.find?_eq_some hk

/-- The first recent key stays the first as long as it is recent. -/
theorem findRecent_later {keys : List Key} {t now : Instant} {k : Key} (ht : t.toInt ≤ now.toInt)
    (hk : findRecent keys t = some k) (hn : k.isRecent now = true) :
    findRecent keys now = some k := by
  obtain ⟨-, front, rest, rfl, hfront⟩ := List.find?_eq_some_iff_append.mp hk
  refine List.find?_eq_some_iff_append.mpr ⟨hn, front, rest, rfl, fun j hj => ?_⟩
  cases hj' : j.isRecent now with
  | false => rfl
  | true =>
    have := hfront j hj
    rw [Key.isRecent_of_le ht hj'] at this
    contradiction

/-! ### One clock reading -/

structure Clock.IsSteady (c : Clock) (t : Instant) : Prop where
  now_eq : c.now = t
  drift_eq : ∀ n, c.drift n = 0
  countsSleep_eq : c.countsSleep = false

theorem Clock.IsSteady.look {c : Clock} {t : Instant} (h : c.IsSteady t) : c.look.2.IsSteady t where
  now_eq := by simp [Clock.look, h.drift_eq, h.now_eq]
  drift_eq := h.drift_eq
  countsSleep_eq := h.countsSleep_eq

/-! ### Keyrings of one place -/

/-- Where a keyring is: below which home, in which directory, and of which context. -/
structure Place where
  home : Path
  subdir : Path
  context : List Char

namespace Place

def directory (place : Place) : Path := place.home.join place.subdir

def file (place : Place) : Path := place.directory.join ⟨place.context⟩

end Place

/-- The files hold a history, as far as its keys are kept from now on. Should the directory of the
keyring still be missing, making it changes nothing about that. -/
structure Holds (place : Place) (history : List Key) (now : Instant) (m : Machine) : Prop where
  undisturbed : m.Undisturbed
  timely : Timely history now
  saved_eq : ∀ t : Instant, now.toInt ≤ t.toInt →
    Keyring.saved m.files m.cwd place.file t = kept history t
  settled : Context.isValid place.context = true → ∀ u,
    m.files.makeDirectory m.cwd place.directory privateDirectoryMode = .ok u →
    u.contents m.cwd place.file = m.files.contents m.cwd place.file

/-- A keyring has loaded a first part of a history. -/
structure Loaded (place : Place) (history : List Key) (now : Instant) (ring : Keyring) : Prop where
  isOf : ring.IsOf place.directory place.context
  storable : Storable ring.keys
  seen : ∃ first : List Key, ∃ t : Instant, first <+: history ∧ Timely first t ∧
    t.toInt ≤ now.toInt ∧ ring.keys = kept first t

variable {place : Place} {history more : List Key} {now t : Instant} {m m' : Machine}
  {ring : Keyring}

theorem Loaded.of_more (h : Loaded place history now ring) (hmore : history <+: more)
    (ht : now.toInt ≤ t.toInt) : Loaded place more t ring := by
  obtain ⟨first, t', hfirst, htimely, hle, hkeys⟩ := h.seen
  exact ⟨h.isOf, h.storable, first, t', hfirst.trans hmore, htimely, by omega, hkeys⟩

/-- What a keyring finds recent is what the whole history has first. -/
theorem Loaded.findRecent_eq_some (h : Loaded place history now ring) (ht : now.toInt ≤ t.toInt)
    {k : Key} (hk : findRecent ring.keys t = some k) : findRecent history t = some k := by
  obtain ⟨first, t', hfirst, htimely, hle, hkeys⟩ := h.seen
  rw [hkeys, findRecent_kept htimely (by omega)] at hk
  exact findRecent_of_more hfirst hk

theorem Holds.of_le (h : Holds place history now m) (ht : now.toInt ≤ t.toInt) :
    Holds place history t m where
  undisturbed := h.undisturbed
  timely := h.timely.of_le ht
  saved_eq t' ht' := h.saved_eq t' (by omega)
  settled := h.settled

/-- Only the files and the others matter. -/
theorem Holds.of_eq (h : Holds place history now m) (hu : m'.Undisturbed) (hcwd : m'.cwd = m.cwd)
    (hfiles : m'.files = m.files) : Holds place history now m' where
  undisturbed := hu
  timely := h.timely
  saved_eq t ht := by rw [hcwd, hfiles, h.saved_eq t ht]
  settled hv u hm := by
    rw [hcwd, hfiles] at hm ⊢
    exact h.settled hv u hm

/-- The files hold the history still if the file has the same contents and its directory stands. -/
theorem Holds.of_contents (h : Holds place history now m) (hu : m'.Undisturbed)
    (hcwd : m'.cwd = m.cwd)
    (hcontents : m'.files.contents m.cwd place.file = m.files.contents m.cwd place.file)
    (hmade : ∀ u, m'.files.makeDirectory m.cwd place.directory privateDirectoryMode ≠ .ok u) :
    Holds place history now m' where
  undisturbed := hu
  timely := h.timely
  saved_eq t ht := by
    rw [hcwd, Keyring.saved, hcontents]
    exact h.saved_eq t ht
  settled _ u hm := absurd (hcwd ▸ hm) (hmade u)

/-- One more key is written after those that are kept. -/
theorem Holds.of_serialized {key : Key} (h : Holds place history now m) (hu : m'.Undisturbed)
    (hcwd : m'.cwd = m.cwd) (hkey : IsFresh (kept history now) now key) (h0 : 0 ≤ now.toInt)
    (hcontents : m'.files.contents m.cwd place.file =
      KeyFile.serialize (kept history now ++ [key]))
    (hmade : ∀ u, m'.files.makeDirectory m.cwd place.directory privateDirectoryMode ≠ .ok u) :
    Holds place (history ++ [key]) now m' where
  undisturbed := hu
  timely := h.timely.append hkey.created_eq h0
  saved_eq t ht := by
    have hstorable : Storable (kept history now) := by
      rw [← h.saved_eq now (Int.le_refl _)]
      exact (KeyFile.parse_storable _ _).1
    rw [hcwd, Keyring.saved, hcontents, KeyFile.parse_serialize (hstorable.append_fresh hkey),
      kept_append, kept_kept h.timely ht, kept_append]
  settled _ u hm := absurd (hcwd ▸ hm) (hmade u)

/-- A keyring that reads the file has loaded the whole history. -/
theorem Holds.loaded (h : Holds place history t m)
    (hr : ring.IsOf place.directory place.context) :
    Loaded place history t { ring with keys := Keyring.saved m.files m.cwd ring.file t } where
  isOf := hr.with_keys _
  storable := (KeyFile.parse_storable _ _).1
  seen := by
    refine ⟨history, t, List.prefix_rfl, h.timely, Int.le_refl _, ?_⟩
    rw [hr.file_eq]
    exact h.saved_eq t (Int.le_refl _)

/-- What a renewal passes on to the machine after it, from its start over the moment of the lock to
its end. -/
theorem passed_on {locked : Machine} (hu : m.Undisturbed) (hc : m.clock.IsSteady t)
    (hwaited : (m.answer .now).2.Waited locked) (hkept : locked.Kept m') :
    m'.cwd = m.cwd ∧ m'.Undisturbed ∧ m'.clock.IsSteady t := by
  have hlook : (m.answer .now).2.clock.IsSteady t := hc.look
  refine ⟨hkept.cwd_eq.trans hwaited.cwd_eq, ?_, ?_⟩
  · have hlocked := hu.of_eq hwaited.others_eq fun hq => hwaited.random_eq ▸ hq
    exact hlocked.of_eq hkept.others_eq hkept.quiet
  · rw [hkept.clock_eq, hwaited.clock_eq hlook.countsSleep_eq]
    exact hlook

section Renew

variable {locked : Machine} {l : Location} {v : FileTree} (h : Holds place history t m)
  (hof : ring.IsOf place.directory place.context) (hc : m.clock.IsSteady t)
  (hwaited : (m.answer .now).2.Waited locked) (hquiet : locked.random.Quiet)
  (hroom : Lock.Room ring.marker m.cwd l m.files v)
  (hfiles : locked.files = v.insert l (.file privateFileMode []))
include h hof hc hwaited hquiet hroom hfiles

/-- A renewal that fails under the lock leaves the history as it is. -/
theorem Holds.of_failed {fault : Fault}
    (hext : (Keyring.extendFile ring.file m.clock.now).run locked = (.error fault, m')) :
    Holds place history t ((Lock.mk ring.marker).release.run m').2 ∧
      ((Lock.mk ring.marker).release.run m').2.clock.IsSteady t := by
  obtain ⟨hkept, hspared⟩ :=
    Keyring.release_of_failed hof hwaited.cwd_eq hroom hfiles hquiet hext
  obtain ⟨hcwd, hu, hclock⟩ := passed_on h.undisturbed hc hwaited hkept
  refine ⟨h.of_contents hu hcwd ?_ ?_, hclock⟩
  · have hfile : place.file = ring.file := hof.file_eq.symm
    rw [hfile]
    exact (hof.contents_of_spared hspared).trans (hof.contents_of_room hroom).2
  · have hplace := hspared.sameDirectories.locate_eq_ok hroom.locate_eq
    exact fun u => hof.makeDirectory_ne_ok hplace privateDirectoryMode

/-- A renewal that succeeds adds its key to the history, and loads all of it. -/
theorem Holds.of_added (h0 : 0 ≤ t.toInt) {keys : List Key}
    (hext : (Keyring.extendFile ring.file m.clock.now).run locked = (.ok keys, m')) :
    ∃ key, keys = kept (history ++ [key]) t ∧
      Holds place (history ++ [key]) t ((Lock.mk ring.marker).release.run m').2 ∧
      Loaded place (history ++ [key]) t { ring with keys := keys } ∧
      ((Lock.mk ring.marker).release.run m').2.clock.IsSteady t := by
  obtain ⟨hkept, key, hkey, hkeys, hwritten⟩ :=
    Keyring.release_of_added hof hwaited.cwd_eq hroom hfiles hquiet hext
  obtain ⟨hcwd, hu, hclock⟩ := passed_on h.undisturbed hc hwaited hkept
  have hfile : ring.file = place.file := hof.file_eq
  have hsaved : Keyring.saved locked.files m.cwd ring.file m.clock.now = kept history t := by
    rw [hc.now_eq, hfiles, hof.saved_of_room hroom, hfile]
    exact h.saved_eq t (Int.le_refl _)
  have hstorable : Storable (kept history t) := hsaved ▸ (KeyFile.parse_storable _ _).1
  have hlook : (m.answer .now).2.cwd = m.cwd := rfl
  rw [hlook, hsaved] at hkey hkeys
  rw [hc.now_eq] at hkey
  have hfresh := (freshKey_run _ _ _).2 key hkey
  have hall : keys = kept (history ++ [key]) t := by
    rw [kept_append_fresh hfresh.created_eq h0, hkeys]
  refine ⟨key, hall, h.of_serialized hu hcwd hfresh h0 ?_ ?_, ⟨hof.with_keys _, ?_, ?_⟩, hclock⟩
  · rw [← hkeys, ← hfile, FileTree.contents]
    rw [hlook] at hwritten
    rw [hof.read_of_written hwritten]
    rfl
  · have hplace := hwritten.sameDirectories.locate_eq_ok hroom.locate_eq
    exact fun u => hof.makeDirectory_ne_ok hplace privateDirectoryMode
  · rw [hkeys]
    exact hstorable.append_fresh hfresh
  · exact ⟨history ++ [key], t, List.prefix_rfl, h.timely.append hfresh.created_eq h0,
      Int.le_refl _, hall⟩

end Renew

/-- A renewal adds a key to the history, or leaves it as it is. -/
theorem renew_holds (h : Holds place history t m) (hr : Loaded place history t ring)
    (hc : m.clock.IsSteady t) (h0 : 0 ≤ t.toInt) :
    ∃ more, history <+: more ∧ Holds place more t (ring.renew.run m).2 ∧
      Loaded place more t (ring.renew.run m).1.2 ∧ (ring.renew.run m).2.clock.IsSteady t ∧
      ((ring.renew.run m).1.1 = .ok () → (ring.renew.run m).1.2.keys = kept more t) := by
  have hof := hr.isOf
  have hlook : (m.answer .now).2.Undisturbed := ⟨h.undisturbed.others_eq, h.undisturbed.quiet⟩
  have hren := Keyring.renew_run ring m
  generalize ring.renew.run m = r at hren ⊢
  cases hren with
  | @refused fault m' hlock =>
    obtain ⟨hwaited, hfiles⟩ := hlook.acquire_error hof.marker_endsInSeparator hlock
    obtain ⟨hcwd, hu, hclock⟩ := passed_on h.undisturbed hc hwaited (Machine.Kept.refl m')
    exact ⟨history, List.prefix_rfl, h.of_eq hu hcwd hfiles, hr, hclock, fun hok => by cases hok⟩
  | @failed lock locked m' fault hlock hext =>
    obtain ⟨rfl, hwaited, hquiet, l, v, hroom, hfiles⟩ :=
      hlook.acquire_ok hof.marker_endsInSeparator hlock
    obtain ⟨hholds, hclock⟩ := h.of_failed hof hc hwaited hquiet hroom hfiles hext
    exact ⟨history, List.prefix_rfl, hholds, hr, hclock, fun hok => by cases hok⟩
  | @added lock locked m' keys hlock hext =>
    obtain ⟨rfl, hwaited, hquiet, l, v, hroom, hfiles⟩ :=
      hlook.acquire_ok hof.marker_endsInSeparator hlock
    obtain ⟨key, hkeys, hholds, hloaded, hclock⟩ :=
      h.of_added hof hc hwaited hquiet hroom hfiles h0 hext
    exact ⟨history ++ [key], List.prefix_append .., hholds, hloaded, hclock, fun _ => hkeys⟩

/-- The search for the best key goes on with the history, and finds the first recent key loaded. If
none was loaded before, the whole history is then. -/
theorem bestKey_holds (h : Holds place history t m) (hr : Loaded place history t ring)
    (hc : m.clock.IsSteady t) (h0 : 0 ≤ t.toInt) :
    ∃ more, history <+: more ∧ Holds place more t (ring.bestKey.run m).2 ∧
      Loaded place more t (ring.bestKey.run m).1.2 ∧
      ∀ id, (ring.bestKey.run m).1.1 = .ok id →
        (∃ k, findRecent (ring.bestKey.run m).1.2.keys t = some k ∧ k.id = id) ∧
        (findRecent ring.keys t = none → (ring.bestKey.run m).1.2.keys = kept more t) := by
  have hlook : ∀ {more} {m' : Machine}, Holds place more t m' →
      Holds place more t (m'.answer .now).2 :=
    fun h' => h'.of_eq ⟨h'.undisturbed.others_eq, h'.undisturbed.quiet⟩ rfl rfl
  have hrenew := renew_holds (hlook h) hr hc.look h0
  have hsearch := Keyring.bestKey_run ring m
  generalize ring.bestKey.run m = r at hsearch ⊢
  cases hsearch with
  | @loaded k hk =>
    rw [hc.now_eq] at hk
    refine ⟨history, List.prefix_rfl, hlook h, hr, fun id hid => ⟨⟨k, hk, ?_⟩, fun hnone => ?_⟩⟩
    · cases hid
      rfl
    · rw [hk] at hnone
      contradiction
  | failed hnone hren =>
    rw [hren] at hrenew
    obtain ⟨more, hmore, hholds, hloaded, -, -⟩ := hrenew
    exact ⟨more, hmore, hholds, hloaded, fun id hid => by cases hid⟩
  | @found k ring' m' hnone hren hk =>
    rw [hren] at hrenew
    obtain ⟨more, hmore, hholds, hloaded, hclock, hkeys⟩ := hrenew
    rw [hclock.now_eq] at hk
    refine ⟨more, hmore, hlook hholds, hloaded, fun id hid => ⟨⟨k, hk, ?_⟩, fun _ => hkeys rfl⟩⟩
    cases hid
    rfl
  | missed hnone hren hk =>
    rw [hren] at hrenew
    obtain ⟨more, hmore, hholds, hloaded, -, -⟩ := hrenew
    exact ⟨more, hmore, hlook hholds, hloaded, fun id hid => by cases hid⟩

/-- A reload that succeeds loads the whole history. -/
theorem reload_holds (h : Holds place history t m) (hr : Loaded place history t ring)
    (hc : m.clock.IsSteady t) (h0 : 0 ≤ t.toInt) (addNew : Bool) :
    ∃ more, history <+: more ∧ Holds place more t ((ring.reload addNew).run m).2 ∧
      Loaded place more t ((ring.reload addNew).run m).1.2 ∧
      (((ring.reload addNew).run m).1.1 = .ok () →
        ((ring.reload addNew).run m).1.2.keys = kept more t) := by
  cases addNew with
  | true =>
    obtain ⟨more, hmore, hholds, hloaded, -, hkeys⟩ := renew_holds h hr hc h0
    exact ⟨more, hmore, hholds, hloaded, hkeys⟩
  | false =>
    have hrun : (ring.reload false).run m =
        ((.ok (), (ring.refresh.run m).1), (ring.refresh.run m).2) := by
      simp only [Keyring.reload, Bool.false_eq_true, if_false, Routine.bind_eq, Routine.run_bind]
      rfl
    rw [hrun, Keyring.refresh_run, hc.now_eq]
    refine ⟨history, List.prefix_rfl, ?_, h.loaded hr.isOf, fun _ => ?_⟩
    · exact h.of_eq ⟨h.undisturbed.others_eq, h.undisturbed.quiet⟩ rfl rfl
    · rw [hr.isOf.file_eq]
      exact h.saved_eq t (Int.le_refl _)

/-- The directory that opening makes, if it does, has no part in the history. -/
theorem Holds.of_makeDirectory (h : Holds place history now m)
    (hv : Context.isValid place.context = true) (c : Clock) :
    Holds place history now (Machine.change { m with clock := c }
      (m.files.makeDirectory m.cwd place.directory privateDirectoryMode)).2 := by
  cases hm : m.files.makeDirectory m.cwd place.directory privateDirectoryMode with
  | error e => exact h.of_eq ⟨h.undisturbed.others_eq, h.undisturbed.quiet⟩ rfl rfl
  | ok u =>
    obtain ⟨l, -, -, hwalk, -⟩ := FileTree.walk_of_makeDirectory hm
    refine h.of_contents ⟨h.undisturbed.others_eq, h.undisturbed.quiet⟩ rfl (h.settled hv u hm) ?_
    exact fun v => FileTree.makeDirectory_ne_ok hwalk privateDirectoryMode

/-- Opening succeeds and loads the whole history. -/
theorem openFor_holds {resolver : HomeResolver} {options : KeyringOptions}
    {user : Option (List Char)} (h : Holds place history t m) (hc : m.clock.IsSteady t)
    (hhome : resolver user = .ok place.home) (hsubdir : options.subdir = place.subdir)
    (hv : Context.isValid place.context = true) :
    ∃ ring m', (Keyring.openFor resolver options user place.context).run m = (.ok ring, m') ∧
      Holds place history t m' ∧ Loaded place history t ring ∧ ring.keys = kept history t := by
  have hof := Keyring.isOf_inDirectory hv place.directory options.policy
  have hdir : place.home.join options.subdir = place.directory := by
    rw [hsubdir]
    rfl
  refine ⟨_, _, ?_, h.of_makeDirectory hv m.clock.look.2, h.loaded hof, ?_⟩
  · simp only [Keyring.openFor, hhome, hv, if_true, Routine.bind_eq, Routine.run_bind,
      Keyring.openIn_run, hdir, hc.now_eq]
    rfl
  · exact h.saved_eq t (Int.le_refl _)

/-! ### Where a history starts -/

/-- The bytes that a successful reload with a new key left in the file, at a time up to `now`. -/
def SavedBefore (bytes : List UInt8) (now : Instant) : Prop :=
  ∃ (ring : Keyring) (m : Machine), ring.Proper ∧ m.clock.now.toInt ≤ now.toInt ∧
    ((ring.reload true).run m).1.1 = .ok () ∧
    ((ring.reload true).run m).2.files.read ((ring.reload true).run m).2.cwd ring.file = .ok bytes

/-- Giving the lock back takes nothing from the file. -/
theorem read_release {directory : Path} {context : List Char} (h : ring.IsOf directory context)
    {k : Location} (hk : m.files.locate m.cwd ring.file = .ok (.name k)) {mode : Mode}
    {bytes : List UInt8} (hlook : m.files.lookup k = some (.file mode bytes)) :
    ((Lock.mk ring.marker).release.run m).2.files.read
      ((Lock.mk ring.marker).release.run m).2.cwd ring.file = .ok bytes := by
  rw [Lock.release_run]
  cases hr : m.files.remove m.cwd ring.marker with
  | error e => exact FileTree.read_eq_ok_of_file h.file_endsInSeparator hk hlook
  | ok u =>
    obtain ⟨l, mode', old, hl, hthere, rfl⟩ :=
      (FileTree.remove_eq_ok h.marker_endsInSeparator).mp hr
    have hsame := FileTree.sameDirectories_erase (FileTree.not_hasDirectory_of_file hthere)
    have hstill : (m.files.erase l).lookup k = some (.file mode bytes) := by
      rw [FileTree.lookup_erase_of_ne _ (h.file_ne_marker hk hl), hlook]
    exact FileTree.read_eq_ok_of_file h.file_endsInSeparator (hsame.locate_eq_ok hk) hstill

/-- What a renewal that succeeds saves and loads: the keys that it found and a new key behind
them. -/
structure Keyring.Appends (ring : Keyring) (now : Instant) (old : List Key) (key : Key)
    (ring' : Keyring) (m' : Machine) : Prop where
  storable : Storable old
  timely : ∀ k ∈ old, k.isWithinLifetime now = true
  fresh : IsFresh old now key
  ring_eq : ring' = { ring with keys := old ++ [key] }
  read_eq : m'.files.read m'.cwd ring.file = .ok (KeyFile.serialize (old ++ [key]))

/-- This is so on every machine, whatever others do while it sleeps or draws bytes. -/
theorem Keyring.Proper.renew_appends {ring ring' : Keyring} (h : ring.Proper) {m m' : Machine}
    (hren : ring.renew.run m = ((.ok (), ring'), m')) :
    ∃ old key, ring.Appends m.clock.now old key ring' m' := by
  obtain ⟨directory, context, hof⟩ := h
  have hrenewal := Keyring.renew_run ring m
  rw [hren] at hrenewal
  cases hrenewal with
  | @added lock locked m' keys hlock hext =>
    obtain rfl := Lock.acquire_eq hof.marker_endsInSeparator hlock
    obtain ⟨hkept, u, -, hdone⟩ := Keyring.extendFile_run hof.file_endsInSeparator
      hof.temporary_endsInSeparator m.clock.now locked
    rw [hext] at hkept hdone
    obtain ⟨key, hkey, rfl, hwritten⟩ := hdone
    have hsame := hwritten.sameDirectories
    obtain ⟨k, n, hk, -, -, -, hfinal⟩ := hwritten
    have hplace : m'.files.locate m'.cwd ring.file = .ok (.name k) := by
      rw [hkept.cwd_eq]
      exact hsame.locate_eq_ok hk
    obtain ⟨hstorable, hlife⟩ := KeyFile.parse_storable
      (locked.files.contents locked.cwd ring.file) m.clock.now
    have hlook := FileTree.lookup_insert_self u (FileTree.locate_ne_nil hk)
      (.file privateFileMode (KeyFile.serialize (Keyring.saved locked.files locked.cwd ring.file
        m.clock.now ++ [key])))
    rw [← hfinal] at hlook
    exact ⟨_, key, hstorable, hlife, (freshKey_run _ _ _).2 key hkey, rfl,
      read_release hof hplace hlook⟩

/-- A reload writes keys that a file can hold, none of them too far ahead of its time. -/
theorem SavedBefore.keys {bytes : List UInt8} (h : SavedBefore bytes now) :
    ∃ keys, Storable keys ∧ bytes = KeyFile.serialize keys ∧
      ∀ k ∈ keys, k.created.toInt ≤ now.toInt + aheadBy := by
  obtain ⟨ring, m, hproper, hle, hok, hread⟩ := h
  obtain ⟨old, key, hext⟩ := hproper.renew_appends
    (Prod.ext (Prod.ext hok rfl) rfl : ring.renew.run m = ((.ok (), _), _))
  have hbytes : Except.ok bytes = .ok (KeyFile.serialize (old ++ [key])) :=
    hread.symm.trans hext.read_eq
  refine ⟨old ++ [key], hext.storable.append_fresh hext.fresh, Except.ok.inj hbytes,
    fun j hj => ?_⟩
  rcases List.mem_append.mp hj with hj | hj
  · have := (Key.isWithinLifetime_iff j m.clock.now).mp (hext.timely j hj)
    omega
  · rw [List.mem_singleton.mp hj, hext.fresh.created_eq]
    unfold aheadBy
    omega

/-- What a reload wrote is a history, without the keys from before 1970. -/
theorem SavedBefore.timely {bytes : List UInt8} (h : SavedBefore bytes now) :
    ∃ history, Timely history now ∧ ∀ t, KeyFile.parse bytes t = kept history t := by
  obtain ⟨keys, hstorable, rfl, hahead⟩ := h.keys
  refine ⟨keys.filter fun k => 0 ≤ k.created.toInt, fun k hk => ?_, fun t => ?_⟩
  · obtain ⟨hk, h0⟩ := List.mem_filter.mp hk
    exact ⟨by simpa using h0, hahead k hk⟩
  · rw [KeyFile.parse_serialize hstorable, kept, kept, List.filter_filter]
    refine List.filter_congr fun k _ => ?_
    cases hlife : k.isWithinLifetime t with
    | false => rfl
    | true =>
      have := ((Key.isWithinLifetime_iff k t).mp hlife).1
      simpa using this

end Keyrings
