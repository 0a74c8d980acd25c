import Keyrings.Lock
import Keyrings.Machine
import Keyrings.Proofs.FileTree

/-! How a lock is taken. Whatever others do during the sleeps, the attempt that decides works on one
tree: it puts a marker where none stood, or in the place of a stale one, or leaves that tree alone.
A property of trees that the others keep holds of the deciding tree; undisturbed, it is the tree
that the wait began with. -/

namespace Keyrings

/-- Everything that sleeping and file operations leave as it is. -/
structure Machine.Waited (m m' : Machine) : Prop where
  cwd_eq : m'.cwd = m.cwd
  looks_eq : m'.clock.looks = m.clock.looks
  clock_eq : m.clock.countsSleep = false → m'.clock = m.clock
  random_eq : m'.random = m.random
  draws_eq : m'.draws = m.draws
  uuids_eq : m'.uuids = m.uuids
  uuidCount_eq : m'.uuidCount = m.uuidCount
  others_eq : m'.others = m.others

namespace Machine

variable {m m' m'' : Machine}

theorem Waited.of_files (m : Machine) (t : FileTree) : m.Waited { m with files := t } :=
  ⟨rfl, rfl, fun _ => rfl, rfl, rfl, rfl, rfl, rfl⟩

theorem Waited.trans (h : m.Waited m') (h' : m'.Waited m'') : m.Waited m'' where
  cwd_eq := h'.cwd_eq.trans h.cwd_eq
  looks_eq := h'.looks_eq.trans h.looks_eq
  clock_eq hs := by
    have hclock := h.clock_eq hs
    rw [h'.clock_eq (by rw [hclock, hs]), hclock]
  random_eq := h'.random_eq.trans h.random_eq
  draws_eq := h'.draws_eq.trans h.draws_eq
  uuids_eq := h'.uuids_eq.trans h.uuids_eq
  uuidCount_eq := h'.uuidCount_eq.trans h.uuidCount_eq
  others_eq := h'.others_eq.trans h.others_eq

theorem waited_sleep (m : Machine) (time : Duration) : m.Waited (m.answer (.sleep time)).2 where
  cwd_eq := rfl
  looks_eq := by
    simp only [answer, Clock.sleep]
    split <;> rfl
  clock_eq hs := by simp [answer, Clock.sleep, hs]
  random_eq := rfl
  draws_eq := rfl
  uuids_eq := rfl
  uuidCount_eq := rfl
  others_eq := rfl

theorem change_ok (m : Machine) (t : FileTree) :
    m.change (.ok t) = (.ok (), { m with files := t }) := rfl

theorem change_error (m : Machine) (e : FileError) : m.change (.error e) = (.error e, m) := rfl

end Machine

namespace Lock

/-- How the deciding attempt ends: with a new marker, with one in the place of a stale one, or with
nothing done. -/
inductive Taken (t : FileTree) (cwd : Location) (marker : Path) :
    Except Fault Lock → FileTree → Prop
  | free {u : FileTree} (h : t.create cwd marker privateFileMode = .ok u) :
      Taken t cwd marker (.ok ⟨marker⟩) u
  | stale {u v : FileTree} (hr : t.remove cwd marker = .ok v)
      (hc : v.create cwd marker privateFileMode = .ok u) : Taken t cwd marker (.ok ⟨marker⟩) u
  | stuck (e : FileError) : Taken t cwd marker (.error (.failed (.markerStuck marker e))) t

variable {marker : Path}

theorem seize_run (hsep : marker.endsInSeparator = false) (m : Machine) :
    ∃ u, ((seize marker).run m).2 = { m with files := u } ∧
      Taken m.files m.cwd marker ((seize marker).run m).1 u := by
  simp only [seize, Routine.request, Routine.bind_eq, Routine.ask_bind, Routine.done_bind,
    Routine.run_ask, Machine.answer]
  cases hr : m.files.remove m.cwd marker with
  | ok v =>
    obtain ⟨l, -, -, hc⟩ := FileTree.create_of_remove hsep hr privateFileMode
    simp only [Machine.change_ok, hc]
    exact ⟨_, rfl, .stale hr hc⟩
  | error e =>
    simp only [Machine.change_error]
    cases hc : m.files.create m.cwd marker privateFileMode with
    | ok u => exact ⟨u, rfl, .free hc⟩
    | error e' => exact ⟨m.files, rfl, .stuck e'⟩

/-- The induction is on the attempts left; the property `P` is what is known of the tree at each. -/
theorem attempt_run (hsep : marker.endsInSeparator = false) (timeout : Duration) (n : Nat)
    {m : Machine} {P : FileTree → Prop} (hP : ∀ i t, P t → P (m.others i t)) (h : P m.files) :
    m.Waited ((attempt marker timeout n).run m).2 ∧
      ∃ t, P t ∧ Taken t m.cwd marker ((attempt marker timeout n).run m).1
        ((attempt marker timeout n).run m).2.files := by
  induction n generalizing m with
  | zero =>
    obtain ⟨u, hu, htaken⟩ := seize_run hsep m
    rw [attempt, hu]
    exact ⟨Machine.Waited.of_files m u, m.files, h, htaken⟩
  | succ n ih =>
    simp only [attempt, Routine.request, Routine.bind_eq, Routine.ask_bind, Routine.done_bind,
      Routine.run_ask]
    cases hc : m.files.create m.cwd marker privateFileMode with
    | ok u =>
      simp only [Machine.answer, hc, Machine.change_ok]
      exact ⟨Machine.Waited.of_files m u, m.files, h, .free hc⟩
    | error e =>
      have hanswer : m.answer (.create marker privateFileMode) = (.error e, m) := by
        simp only [Machine.answer, hc, Machine.change_error]
      simp only [hanswer, Routine.run_ask]
      have hslept := m.waited_sleep timeout
      obtain ⟨hwaited, t, ht, htaken⟩ :=
        ih (m := (m.answer (.sleep timeout)).2) hP (hP m.sleepCount m.files h)
      exact ⟨hslept.trans hwaited, t, ht, htaken⟩

/-- The tree in which a taken lock has its marker, without that marker: the tree of the deciding
attempt, or that tree without a stale marker. -/
structure Room (marker : Path) (cwd l : Location) (t v : FileTree) : Prop where
  locate_eq : v.locate cwd marker = .ok (.name l)
  free : v.lookup l = none
  stale : v = t ∨ ∃ mode bytes, t.locate cwd marker = .ok (.name l) ∧
    t.lookup l = some (.file mode bytes) ∧ v = t.erase l

/-- Making room for a marker makes room only. -/
theorem Room.lookup_ne_none {cwd l k : Location} {t v : FileTree} (h : Room marker cwd l t v)
    (hk : v.lookup k ≠ none) : t.lookup k ≠ none := by
  rcases h.stale with rfl | ⟨mode, bytes, -, -, rfl⟩
  · exact hk
  · have hkl : k ≠ l := by
      rintro rfl
      exact hk h.free
    rwa [FileTree.lookup_erase_of_ne t hkl] at hk

theorem Taken.placed (hsep : marker.endsInSeparator = false) {t u : FileTree} {cwd : Location}
    {lock : Lock} (h : Taken t cwd marker (.ok lock) u) : lock = ⟨marker⟩ ∧
      ∃ l v, Room marker cwd l t v ∧ u = v.insert l (.file privateFileMode []) := by
  cases h with
  | free hc =>
    obtain ⟨l, hl, hnone, rfl⟩ := (FileTree.create_eq_ok hsep).mp hc
    exact ⟨rfl, l, t, ⟨hl, hnone, Or.inl rfl⟩, rfl⟩
  | stale hr hc =>
    obtain ⟨l, mode, bytes, hl, hlook, rfl⟩ := (FileTree.remove_eq_ok hsep).mp hr
    have hsame := FileTree.sameDirectories_erase (FileTree.not_hasDirectory_of_file hlook)
    have hlerased := hsame.locate_eq_ok hl
    obtain ⟨k, hk, hnone, rfl⟩ := (FileTree.create_eq_ok hsep).mp hc
    rw [hlerased] at hk
    cases hk
    exact ⟨rfl, l, _, ⟨hlerased, hnone, Or.inr ⟨mode, bytes, hl, hlook, rfl⟩⟩, rfl⟩

theorem Taken.refused {t u : FileTree} {cwd : Location} {fault : Fault}
    (h : Taken t cwd marker (.error fault) u) : u = t := by
  cases h
  rfl

/-- Taking a lock changes no file but the marker, apart from what others do. -/
theorem acquire_ok (hsep : marker.endsInSeparator = false) {policy : LockPolicy}
    {m locked : Machine} {lock : Lock} {P : FileTree → Prop} (hP : ∀ i t, P t → P (m.others i t))
    (h : P m.files) (hlock : (acquire marker policy).run m = (.ok lock, locked)) :
    lock = ⟨marker⟩ ∧ m.Waited locked ∧ ∃ t l v, P t ∧ Room marker m.cwd l t v ∧
      locked.files = v.insert l (.file privateFileMode []) := by
  obtain ⟨hwaited, t, ht, htaken⟩ := attempt_run hsep policy.timeout policy.maxTimeouts hP h
  rw [acquire] at hlock
  rw [hlock] at hwaited htaken
  obtain ⟨hmarker, l, v, hroom, hu⟩ := htaken.placed hsep
  exact ⟨hmarker, hwaited, t, l, v, ht, hroom, hu⟩

/-- A lock that is taken is one for its marker. -/
theorem acquire_eq (hsep : marker.endsInSeparator = false) {policy : LockPolicy}
    {m locked : Machine} {lock : Lock}
    (hlock : (acquire marker policy).run m = (.ok lock, locked)) : lock = ⟨marker⟩ :=
  (acquire_ok hsep (P := fun _ => True) (fun _ _ _ => trivial) trivial hlock).1

/-- A lock that cannot be taken leaves the tree of the deciding attempt. -/
theorem acquire_error (hsep : marker.endsInSeparator = false) {policy : LockPolicy}
    {m m' : Machine} {fault : Fault} {P : FileTree → Prop} (hP : ∀ i t, P t → P (m.others i t))
    (h : P m.files) (hlock : (acquire marker policy).run m = (.error fault, m')) :
    m.Waited m' ∧ P m'.files := by
  obtain ⟨hwaited, t, ht, htaken⟩ := attempt_run hsep policy.timeout policy.maxTimeouts hP h
  rw [acquire] at hlock
  rw [hlock] at hwaited htaken
  exact ⟨hwaited, htaken.refused ▸ ht⟩

theorem release_run (lock : Lock) (m : Machine) :
    (lock.release.run m).2 = (m.change (m.files.remove m.cwd lock.marker)).2 := rfl

theorem release_of_remove {m : Machine} {t : FileTree} (h : m.files.remove m.cwd marker = .ok t) :
    ((Lock.mk marker).release.run m).2 = { m with files := t } := by
  rw [release_run, h, Machine.change_ok]

end Lock

end Keyrings
