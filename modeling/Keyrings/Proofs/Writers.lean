import Keyrings.Proofs.History
import Keyrings.Proofs.Stages

/-! Any number of processes that renew keyrings of one place over and over, taking turns request by
request under one clock. As long as no marker is broken, one of them at a time is past the lock, and
no save undoes another: what was put into the file stays there until it expires. A renewal judges
the file by the time from before its wait, so that a key may seem to lie ahead of it; therefore no
renewal may take longer than that is accepted. -/

namespace Keyrings

/-- A process that renews a keyring over and over. -/
structure Writer where
  ring : Keyring
  /-- What is left of its renewal. -/
  rest : Routine (Except Fault Unit × Keyring)
  /-- The time that this renewal goes by. -/
  taken : Instant
  /-- Whether it has created the marker since it last removed it. -/
  holds : Bool

/-- A file that a renewal put in the place of the one before. -/
structure Save where
  /-- The time that the renewal went by. -/
  taken : Instant
  /-- When the file was moved to its place. -/
  moved : Instant
  /-- The keys that the renewal loads. -/
  keys : List Key

structure Crowd where
  machine : Machine
  writers : List Writer
  /-- What was saved, the latest first. -/
  saves : List Save := []
  /-- How many times a marker was taken for abandoned. -/
  breaks : Nat := 0

namespace Writer

def start (ring : Keyring) : Writer := ⟨ring, ring.renew, 0, false⟩

/-- A process whose request was made on a machine, by what is then left of its renewal. When that is
nothing, the next one starts. -/
def after (w : Writer) (m : Machine) : Routine (Except Fault Unit × Keyring) → Writer
  | .done (_, ring) => start ring
  | rest => {
    ring := w.ring
    rest := rest
    taken := if w.rest.looks then m.clock.now else w.taken
    holds := w.rest.creates w.ring.marker m || w.holds && !w.rest.removes w.ring.marker }

def Waits (w : Writer) : Prop := w.ring.Outside w.taken w.rest ∧ w.holds = false

def Works (w : Writer) (m : Machine) : Prop :=
  w.holds = true ∧ ∃ v mode bytes, v.FileAt m.cwd w.ring.marker mode bytes ∧
    w.ring.Inside w.taken m.cwd v w.rest m.files

theorem Works.of_eq {w : Writer} {m m' : Machine} (h : w.Works m) (hcwd : m'.cwd = m.cwd)
    (hfiles : m'.files = m.files) : w.Works m' := by
  rwa [Works, hcwd, hfiles]

theorem waits_start (ring : Keyring) : (start ring).Waits := ⟨.looks, rfl⟩

theorem after_of_ne_done (w : Writer) (m : Machine) {rest : Routine (Except Fault Unit × Keyring)}
    (h : ∀ a, rest ≠ .done a) : w.after m rest = {
      ring := w.ring
      rest := rest
      taken := if w.rest.looks then m.clock.now else w.taken
      holds := w.rest.creates w.ring.marker m || w.holds && !w.rest.removes w.ring.marker } := by
  cases rest with
  | done a => exact absurd rfl (h a)
  | ask request next => rfl

end Writer

namespace Crowd

def start (m : Machine) (rings : List Keyring) : Crowd := ⟨m, rings.map .start, [], 0⟩

def step (c : Crowd) (t : Instant) (i : Nat) : Crowd :=
  match c.writers[i]? with
  | none => c
  | some w =>
    let m := { c.machine with clock := { now := t } }
    let (rest, m') := w.rest.step m
    { machine := m'
      writers := c.writers.set i (w.after m rest)
      saves := if w.rest.moves w.ring.file m then
          ⟨w.taken, t, (rest.run m').1.2.keys⟩ :: c.saves else c.saves
      breaks := c.breaks + if !w.holds && w.rest.removes w.ring.marker then 1 else 0 }

def run (c : Crowd) : List (Instant × Nat) → Crowd
  | [] => c
  | (t, i) :: turns => (c.step t i).run turns

/-! ### What the file holds -/

/-- The key that a save added is in the latest save, unless a renewal after it went by a time at
which the key had expired. -/
def Lasts (saves : List Save) (last x : Save) : Prop :=
  0 ≤ x.taken.toInt ∧ x.taken.toInt ≤ last.moved.toInt ∧
    ∃ k, x.keys.getLast? = some k ∧ k.created = x.taken ∧
      ((∀ y ∈ saves, y.taken.toInt ≤ k.created.toInt + keptFor) → k ∈ last.keys)

/-- The file is as it was at first, or holds the keys of the latest save. -/
def Filed (initial : List UInt8) (file : Path) (cwd : Location) (now : Instant) (t : FileTree) :
    List Save → Prop
  | [] => t.contents cwd file = initial
  | last :: earlier =>
    file.endsInSeparator = false ∧
      t.FileAt cwd file privateFileMode (KeyFile.serialize last.keys) ∧ Storable last.keys ∧
      last.moved.toInt ≤ now.toInt ∧ ∀ x ∈ last :: earlier, Lasts (last :: earlier) last x

section Filed

variable {ring : Keyring} {directory file : Path} {context : List Char} {initial : List UInt8}
  {cwd : Location} {now t : Instant} {saves : List Save} {u v w : FileTree}

theorem Filed.of_le (hf : Filed initial file cwd now u saves) (ht : now.toInt ≤ t.toInt) :
    Filed initial file cwd t u saves := by
  cases saves with
  | nil => exact hf
  | cons last earlier =>
    obtain ⟨hsep, hfile, hstorable, hmoved, hlasts⟩ := hf
    exact ⟨hsep, hfile, hstorable, Int.le_trans hmoved ht, hlasts⟩

/-- The keys that a renewal finds in the file are those of the latest save which have not expired
by its time. -/
theorem Filed.saved_eq {last : Save} (hf : Filed initial file cwd now u (last :: saves))
    (t : Instant) : Keyring.saved u cwd file t = kept last.keys t := by
  obtain ⟨hsep, hfile, hstorable, -⟩ := hf
  rw [Keyring.saved, hfile.contents_eq hsep, KeyFile.parse_serialize hstorable]

/-- A key of an earlier save is still there at the time of a renewal, if that time does not lie too
far behind. -/
theorem Filed.mem_saved {last x : Save} (hf : Filed initial file cwd now u (last :: saves))
    (hx : Lasts (last :: saves) last x) (hlate : last.moved.toInt ≤ t.toInt + aheadBy) {k : Key}
    (hk : x.keys.getLast? = some k)
    (hkept : ∀ y ∈ last :: saves, y.taken.toInt ≤ k.created.toInt + keptFor)
    (ht : t.toInt ≤ k.created.toInt + keptFor) : k ∈ Keyring.saved u cwd file t := by
  obtain ⟨hnonneg, hmoved, k', hk', hcreated, hmem⟩ := hx
  rw [hk] at hk'
  cases hk'
  have hlife : k.isWithinLifetime t = true := by
    rw [Key.isWithinLifetime_iff, hcreated]
    rw [hcreated] at ht
    omega
  rw [hf.saved_eq]
  exact List.mem_filter.mpr ⟨hmem hkept, hlife⟩

variable (h : ring.IsOf directory context)
include h

theorem Filed.of_sameBut {paths : List Path} (hf : Filed initial ring.file cwd now u saves)
    (hsame : FileTree.SameBut cwd paths u v) (hpaths : ∀ p ∈ paths, p = ring.marker ∨
      ∃ x, p = Keyring.temporaryFor ring.file x) :
    Filed initial ring.file cwd now v saves := by
  cases saves with
  | nil => exact (h.contents_of_sameBut hsame hpaths).trans hf
  | cons last earlier =>
    obtain ⟨hsep, hfile, hrest⟩ := hf
    exact ⟨hsep, h.file_of_sameBut hsame hpaths hfile, hrest⟩

/-- A renewal that was not too slow saves all keys that are still to be kept, and its own. -/
theorem Filed.save {keys : List Key} {moved : Instant}
    (hf : Filed initial ring.file cwd now u saves)
    (hsaved : Keyring.saved v cwd ring.file t = Keyring.saved u cwd ring.file t)
    (hkeys : ring.Extended t cwd v keys) (h0 : 0 ≤ t.toInt) (ht : t.toInt ≤ moved.toInt)
    (hnow : now.toInt ≤ moved.toInt) (hslow : moved.toInt ≤ t.toInt + aheadBy)
    (hfile : w.FileAt cwd ring.file privateFileMode (KeyFile.serialize keys)) :
    Filed initial ring.file cwd moved w (⟨t, moved, keys⟩ :: saves) := by
  obtain ⟨key, hfresh, hkeys⟩ := hkeys
  rw [hsaved] at hfresh hkeys
  have hstorable : Storable keys := by
    rw [hkeys]
    exact (KeyFile.parse_storable _ _).1.append_fresh hfresh
  refine ⟨h.file_endsInSeparator, hfile, hstorable, Int.le_refl _, fun x hx => ?_⟩
  rcases List.mem_cons.mp hx with rfl | hx
  · refine ⟨h0, ht, key, by rw [hkeys, List.getLast?_concat], hfresh.created_eq, fun _ => ?_⟩
    rw [hkeys]
    exact List.mem_append_right _ (List.mem_singleton_self key)
  · cases saves with
    | nil => contradiction
    | cons last earlier =>
      obtain ⟨-, -, -, hmoved, hlasts⟩ := id hf
      have hlast := hlasts x hx
      obtain ⟨hnonneg, hle, k, hk, hcreated, -⟩ := id hlast
      have hle' := Int.le_trans (Int.le_trans hle hmoved) hnow
      refine ⟨hnonneg, hle', k, hk, hcreated, fun hkept => ?_⟩
      rw [hkeys]
      refine List.mem_append_left _ (hf.mem_saved hlast (by omega) hk ?_ ?_)
      · exact fun y hy => hkept y (List.mem_cons_of_mem _ hy)
      · exact hkept _ List.mem_cons_self

end Filed

/-! ### One process at a time -/

/-- What holds between two turns: at most one process has the lock, and what it does to the file is
done by the time that it took. -/
structure Sound (directory : Path) (context : List Char) (initial : List UInt8) (now : Instant)
    (c : Crowd) : Prop where
  undisturbed : c.machine.Undisturbed
  isOf : ∀ w ∈ c.writers, w.ring.IsOf directory context
  taken : ∀ w ∈ c.writers, 0 ≤ w.taken.toInt ∧ w.taken.toInt ≤ now.toInt
  alone : ∃ i, ∀ (j : Nat) (w : Writer), c.writers[j]? = some w →
    w.Waits ∨ j = i ∧ w.Works c.machine
  filed : Filed initial (directory.join ⟨context⟩) c.machine.cwd now c.machine.files c.saves

namespace Sound

variable {directory : Path} {context : List Char} {initial : List UInt8} {now t : Instant}
  {c : Crowd} {i : Nat} {w : Writer}

/-- A process that becomes another one on another machine: either it has no lock and leaves the
files alone, or nobody else has the lock. -/
theorem put (h : c.Sound directory context initial now) (hi : c.writers[i]? = some w)
    (ht : now.toInt ≤ t.toInt) {new : Writer} {m : Machine} {saves : List Save} (breaks : Nat)
    (hu : m.Undisturbed) (hcwd : m.cwd = c.machine.cwd) (hof : new.ring.IsOf directory context)
    (htaken : 0 ≤ new.taken.toInt ∧ new.taken.toInt ≤ t.toInt)
    (halone : new.Waits ∧ m.files = c.machine.files ∨ (new.Waits ∨ new.Works m) ∧
      ∀ (j : Nat) (w' : Writer), c.writers[j]? = some w' → j ≠ i → w'.Waits)
    (hfiled : Filed initial (directory.join ⟨context⟩) c.machine.cwd t m.files saves) :
    Sound directory context initial t ⟨m, c.writers.set i new, saves, breaks⟩ where
  undisturbed := hu
  isOf w' hw' := by
    rcases List.mem_or_eq_of_mem_set hw' with hw' | rfl
    · exact h.isOf w' hw'
    · exact hof
  taken w' hw' := by
    rcases List.mem_or_eq_of_mem_set hw' with hw' | rfl
    · have := h.taken w' hw'
      omega
    · exact htaken
  alone := by
    have hset : ∀ (j : Nat) (w' : Writer), (c.writers.set i new)[j]? = some w' →
        j = i ∧ w' = new ∨ j ≠ i ∧ c.writers[j]? = some w' := by
      intro j w' hj
      by_cases hji : j = i
      · subst hji
        rw [List.getElem?_set_self (List.getElem?_eq_some_iff.mp hi).1] at hj
        exact Or.inl ⟨rfl, (Option.some.inj hj).symm⟩
      · rw [List.getElem?_set_ne (Ne.symm hji)] at hj
        exact Or.inr ⟨hji, hj⟩
    rcases halone with ⟨hnew, hfiles⟩ | ⟨hnew, hothers⟩
    · obtain ⟨k, hk⟩ := h.alone
      refine ⟨k, fun j w' hj => ?_⟩
      rcases hset j w' hj with ⟨-, rfl⟩ | ⟨-, hj⟩
      · exact Or.inl hnew
      · exact (hk j w' hj).imp_right fun hw => ⟨hw.1, hw.2.of_eq hcwd hfiles⟩
    · refine ⟨i, fun j w' hj => ?_⟩
      rcases hset j w' hj with ⟨rfl, rfl⟩ | ⟨hji, hj⟩
      · exact hnew.imp_right fun hw => ⟨rfl, hw⟩
      · exact Or.inl (hothers j w' hj hji)
  filed := by
    rw [hcwd]
    exact hfiled

/-- A process without the lock that leaves the files alone. -/
theorem put_waits (h : c.Sound directory context initial now) (hi : c.writers[i]? = some w)
    (ht : now.toInt ≤ t.toInt) {new : Writer} {m : Machine} (breaks : Nat)
    (hu : m.Undisturbed) (hcwd : m.cwd = c.machine.cwd) (hfiles : m.files = c.machine.files)
    (hof : new.ring.IsOf directory context)
    (htaken : 0 ≤ new.taken.toInt ∧ new.taken.toInt ≤ t.toInt) (hnew : new.Waits) :
    Sound directory context initial t ⟨m, c.writers.set i new, c.saves, breaks⟩ := by
  refine h.put hi ht breaks hu hcwd hof htaken (Or.inl ⟨hnew, hfiles⟩) ?_
  rw [hfiles]
  exact h.filed.of_le ht

/-- Whoever can create the marker is the only one to have the lock. -/
theorem waits_of_create (h : c.Sound directory context initial now) {ring : Keyring}
    (hr : ring.IsOf directory context) {u : FileTree}
    (hc : c.machine.files.create c.machine.cwd ring.marker privateFileMode = .ok u) {j : Nat}
    {w' : Writer} (hj : c.writers[j]? = some w') : w'.Waits := by
  obtain ⟨k, hk⟩ := h.alone
  rcases hk j w' hj with hwaits | ⟨-, -, v, mode, bytes, hmarker, hin⟩
  · exact hwaits
  · have hof := h.isOf w' (List.mem_of_getElem? hj)
    have hstill := hin.marker hof hmarker
    rw [hof.marker_join, ← hr.marker_join] at hstill
    exact absurd hc (hstill.create_ne_ok hr.marker_endsInSeparator _)

/-- A turn of a process that has no lock. -/
theorem step_of_waits (h : c.Sound directory context initial now) {ring : Keyring}
    {rest : Routine (Except Fault Unit × Keyring)} {taken : Instant}
    (hi : c.writers[i]? = some ⟨ring, rest, taken, false⟩) (hout : ring.Outside taken rest)
    (h0 : 0 ≤ t.toInt) (ht : now.toInt ≤ t.toInt) (hbreaks : (c.step t i).breaks = 0) :
    (c.step t i).Sound directory context initial t := by
  have hof : ring.IsOf directory context := h.isOf _ (List.mem_of_getElem? hi)
  obtain ⟨h0', hle⟩ : 0 ≤ taken.toInt ∧ taken.toInt ≤ now.toInt :=
    h.taken _ (List.mem_of_getElem? hi)
  have hfiled := h.filed.of_le ht
  simp only [step, hi] at hbreaks ⊢
  generalize hm : ({ c.machine with clock := { now := t } } : Machine) = m at hbreaks ⊢
  have hu : m.Undisturbed := by
    rw [← hm]
    exact h.undisturbed.of_eq rfl id
  have hcwd : m.cwd = c.machine.cwd := by rw [← hm]
  have hfiles : m.files = c.machine.files := by rw [← hm]
  have hclock : m.clock.now = t := by rw [← hm]
  have hu' := hu.step rest
  have hcwd' := (rest.step_cwd m).trans hcwd
  have happroach := hout.step hu hof.marker_endsInSeparator
  generalize rest.step m = result at hbreaks hu' hcwd' happroach ⊢
  cases happroach with
  | @looked m' hsame =>
    have hnew := Writer.after_of_ne_done ⟨ring, ring.renew, taken, false⟩ m
      (ring.waiting_ne_done m.clock.now (.start ring.policy.maxTimeouts))
    have htaken : (if ring.renew.looks then m.clock.now else taken) = t := hclock
    simp only [htaken] at hnew
    rw [hnew, hclock]
    exact h.put_waits hi ht _ hu' hcwd' (hsame.trans hfiles) hof ⟨h0, Int.le_refl _⟩
      ⟨.waits _, rfl⟩
  | @waited w w' m' hsame hcreates hremoves =>
    have hnew := Writer.after_of_ne_done ⟨ring, ring.waiting taken w, taken, false⟩ m
      (ring.waiting_ne_done taken w')
    simp only [Keyring.looks_waiting, hcreates, Bool.false_eq_true, if_false, Bool.or_self,
      Bool.false_and] at hnew
    rw [hnew, Keyring.moves_waiting]
    have htaken := Int.le_trans hle ht
    exact h.put_waits hi ht _ hu' hcwd' (hsame.trans hfiles) hof ⟨h0', htaken⟩ ⟨.waits _, rfl⟩
  | @entered w m' hcreate hcreates hremoves =>
    have hnew : Writer.after ⟨ring, ring.waiting taken w, taken, false⟩ m (ring.loading taken) =
        ⟨ring, ring.loading taken, taken, true⟩ := by
      simp [Writer.after, Keyring.loading, Keyring.looks_waiting, hcreates]
    rw [hnew, Keyring.moves_waiting]
    rw [hcwd, hfiles] at hcreate
    obtain ⟨hsame, hmarker⟩ := FileTree.sameBut_create (List.mem_singleton_self _)
      hof.marker_endsInSeparator hcreate
    refine h.put hi ht _ hu' hcwd' hof ⟨h0', Int.le_trans hle ht⟩ (Or.inr ⟨Or.inr ⟨rfl, m'.files,
      privateFileMode, [], ?_, .loads⟩, fun j w' hj _ => h.waits_of_create hof hcreate hj⟩) ?_
    · rw [hcwd']
      exact hmarker
    · rw [← hof.file_eq] at hfiled ⊢
      exact hfiled.of_sameBut hof hsame (by simp)
  | @broke m' hsame hremoves =>
    rw [hremoves] at hbreaks
    simp at hbreaks
  | @refused w m' fault hsame hcreates hremoves =>
    rw [Keyring.moves_waiting]
    exact h.put_waits hi ht _ hu' hcwd' (hsame.trans hfiles) hof ⟨Int.le_refl _, h0⟩
      (Writer.waits_start ring)

/-- A turn of the process that has the lock. -/
theorem step_of_works (h : c.Sound directory context initial now) {ring : Keyring}
    {rest : Routine (Except Fault Unit × Keyring)} {taken : Instant} {mode : Mode}
    {bytes : List UInt8} {v : FileTree} (hi : c.writers[i]? = some ⟨ring, rest, taken, true⟩)
    (hothers : ∀ (j : Nat) (w : Writer), c.writers[j]? = some w → j ≠ i → w.Waits)
    (hmarker : v.FileAt c.machine.cwd ring.marker mode bytes)
    (hin : ring.Inside taken c.machine.cwd v rest c.machine.files) (h0 : 0 ≤ t.toInt)
    (ht : now.toInt ≤ t.toInt)
    (hsaves : ∀ x ∈ (c.step t i).saves, x.moved.toInt ≤ x.taken.toInt + aheadBy) :
    (c.step t i).Sound directory context initial t := by
  have hof : ring.IsOf directory context := h.isOf _ (List.mem_of_getElem? hi)
  obtain ⟨h0', hle⟩ : 0 ≤ taken.toInt ∧ taken.toInt ≤ now.toInt :=
    h.taken _ (List.mem_of_getElem? hi)
  have hfiled := h.filed.of_le ht
  simp only [step, hi] at hsaves ⊢
  generalize hm : ({ c.machine with clock := { now := t } } : Machine) = m at hsaves ⊢
  have hu : m.Undisturbed := by
    rw [← hm]
    exact h.undisturbed.of_eq rfl id
  have hcwd : m.cwd = c.machine.cwd := by rw [← hm]
  have hfiles : m.files = c.machine.files := by rw [← hm]
  have hu' := hu.step rest
  have hcwd' := (rest.step_cwd m).trans hcwd
  rw [← hcwd, ← hfiles] at hin
  have hadvance := hin.step hof hu.quiet
  generalize rest.step m = result at hsaves hu' hcwd' hadvance ⊢
  rw [← hof.file_eq] at hfiled
  cases hadvance with
  | @on r' m' x hnext hsame hlooks hremoves hmoves =>
    have hnew := Writer.after_of_ne_done ⟨ring, rest, taken, true⟩ m hnext.ne_done
    simp only [hlooks, hremoves, Bool.false_eq_true, if_false, Bool.not_false, Bool.and_self,
      Bool.or_true] at hnew
    rw [hnew, hmoves]
    rw [hcwd, hfiles] at hsame
    rw [hcwd, ← hcwd'] at hnext
    refine h.put hi ht _ hu' hcwd' hof ⟨h0', Int.le_trans hle ht⟩
      (Or.inr ⟨Or.inr ⟨rfl, v, mode, bytes, ?_, hnext⟩, hothers⟩) ?_
    · rw [hcwd']
      exact hmarker
    · rw [← hof.file_eq]
      exact hfiled.of_sameBut hof hsame fun p hp => Or.inr ⟨x, List.mem_singleton.mp hp⟩
  | @written keys m' x hkeys hbefore hfile hnext hlooks hremoves hmoves =>
    have hnew := Writer.after_of_ne_done ⟨ring, rest, taken, true⟩ m hnext.ne_done
    simp only [hlooks, hremoves, Bool.false_eq_true, if_false, Bool.not_false, Bool.and_self,
      Bool.or_true] at hnew
    have hkeys' : ((ring.releasing (.ok keys)).run m').1.2.keys = keys := rfl
    rw [hmoves, hkeys'] at hsaves
    rw [hnew, hmoves, hkeys']
    have hslow := hsaves _ List.mem_cons_self
    have hcontents := hof.contents_of_sameBut hbefore fun p hp =>
      Or.inr ⟨x, List.mem_singleton.mp hp⟩
    rw [hcwd, hfiles] at hcontents
    rw [hcwd] at hkeys hfile
    rw [hcwd, ← hcwd'] at hnext
    refine h.put hi ht _ hu' hcwd' hof ⟨h0', Int.le_trans hle ht⟩
      (Or.inr ⟨Or.inr ⟨rfl, v, mode, bytes, ?_, hnext⟩, hothers⟩) ?_
    · rw [hcwd']
      exact hmarker
    · rw [← hof.file_eq]
      refine hfiled.save hof ?_ hkeys h0' (Int.le_trans hle ht) (Int.le_refl _) hslow hfile
      rw [Keyring.saved, Keyring.saved, hcontents]
  | @ended outcome m' hr hsame =>
    have hmoves : rest.moves ring.file m = false := by
      rw [hr]
      rfl
    rw [hmoves]
    rw [hcwd, hfiles] at hsame
    refine h.put hi ht _ hu' hcwd' (hof.settled outcome) ⟨Int.le_refl _, h0⟩
      (Or.inr ⟨Or.inl (Writer.waits_start _), hothers⟩) ?_
    rw [← hof.file_eq]
    exact hfiled.of_sameBut hof hsame fun p hp => Or.inl (List.mem_singleton.mp hp)

/-- Every turn keeps the crowd in order, as long as no marker is broken and nobody is too slow. -/
theorem step (h : c.Sound directory context initial now) (i : Nat) (h0 : 0 ≤ t.toInt)
    (ht : now.toInt ≤ t.toInt) (hbreaks : (c.step t i).breaks = 0)
    (hsaves : ∀ x ∈ (c.step t i).saves, x.moved.toInt ≤ x.taken.toInt + aheadBy) :
    (c.step t i).Sound directory context initial t := by
  cases hi : c.writers[i]? with
  | none =>
    simp only [Crowd.step, hi]
    exact ⟨h.undisturbed, h.isOf, fun w hw => ⟨(h.taken w hw).1, Int.le_trans (h.taken w hw).2 ht⟩,
      h.alone, h.filed.of_le ht⟩
  | some w =>
    obtain ⟨k, hk⟩ := h.alone
    obtain ⟨ring, rest, taken, holds⟩ := w
    rcases hk i _ hi with ⟨hout, hholds⟩ | ⟨rfl, hholds, v, mode, bytes, hmarker, hin⟩
    · obtain rfl : holds = false := hholds
      exact h.step_of_waits hi hout h0 ht hbreaks
    · obtain rfl : holds = true := hholds
      refine h.step_of_works hi (fun j w hj hji => ?_) hmarker hin h0 ht hsaves
      exact (hk j w hj).resolve_right fun hw => hji hw.1

end Sound

/-! ### Runs -/

theorem breaks_le_step (c : Crowd) (t : Instant) (i : Nat) : c.breaks ≤ (c.step t i).breaks := by
  unfold step
  cases c.writers[i]? with
  | none => exact Nat.le_refl _
  | some w => exact Nat.le_add_right _ _

theorem saves_subset_step (c : Crowd) (t : Instant) (i : Nat) : c.saves ⊆ (c.step t i).saves := by
  unfold step
  cases c.writers[i]? with
  | none => exact List.Subset.refl _
  | some w =>
    simp only
    split_ifs
    · exact List.subset_cons_self ..
    · exact List.Subset.refl _

theorem breaks_le_run (c : Crowd) (turns : List (Instant × Nat)) :
    c.breaks ≤ (c.run turns).breaks := by
  induction turns generalizing c with
  | nil => exact Nat.le_refl _
  | cons turn turns ih => exact Nat.le_trans (c.breaks_le_step turn.1 turn.2) (ih _)

theorem saves_subset_run (c : Crowd) (turns : List (Instant × Nat)) :
    c.saves ⊆ (c.run turns).saves := by
  induction turns generalizing c with
  | nil => exact List.Subset.refl _
  | cons turn turns ih => exact List.Subset.trans (c.saves_subset_step turn.1 turn.2) (ih _)

/-- A run keeps the crowd in order, by induction on its turns. -/
theorem Sound.run {directory : Path} {context : List Char} {initial : List UInt8} {now : Instant}
    {c : Crowd} (h : c.Sound directory context initial now) {turns : List (Instant × Nat)}
    (h0 : 0 ≤ now.toInt) (hnow : ∀ turn ∈ turns, now.toInt ≤ turn.1.toInt)
    (hclock : turns.Pairwise fun a b => a.1.toInt ≤ b.1.toInt)
    (hbreaks : (c.run turns).breaks = 0)
    (hsaves : ∀ x ∈ (c.run turns).saves, x.moved.toInt ≤ x.taken.toInt + aheadBy) :
    ∃ last, (c.run turns).Sound directory context initial last := by
  induction turns generalizing now c with
  | nil => exact ⟨now, h⟩
  | cons turn turns ih =>
    obtain ⟨t, i⟩ := turn
    obtain ⟨hlater, hclock⟩ := List.pairwise_cons.mp hclock
    have ht : now.toInt ≤ t.toInt := hnow _ List.mem_cons_self
    have hzero := Nat.le_zero.mp (hbreaks ▸ (c.step t i).breaks_le_run turns)
    have hslow := fun x hx => hsaves x ((c.step t i).saves_subset_run turns hx)
    have hstep := h.step i (Int.le_trans h0 ht) ht hzero hslow
    exact ih hstep (Int.le_trans h0 ht) hlater hclock hbreaks hsaves

theorem sound_start {directory : Path} {context : List Char} {m : Machine} {rings : List Keyring}
    (hu : m.Undisturbed) (hrings : ∀ ring ∈ rings, ring.IsOf directory context) :
    (start m rings).Sound directory context
      (m.files.contents m.cwd (directory.join ⟨context⟩)) 0 where
  undisturbed := hu
  isOf w hw := by
    obtain ⟨ring, hring, rfl⟩ := List.mem_map.mp hw
    exact hrings ring hring
  taken w hw := by
    obtain ⟨ring, -, rfl⟩ := List.mem_map.mp hw
    exact ⟨Int.le_refl _, Int.le_refl _⟩
  alone := by
    refine ⟨0, fun j w hj => Or.inl ?_⟩
    obtain ⟨ring, -, rfl⟩ := List.mem_map.mp (List.mem_of_getElem? hj)
    exact Writer.waits_start ring
  filed := rfl

/-- Without a broken marker no update is lost: whatever turns the processes take, a key that was
saved is found in every later save at the time that this went by, until a renewal has gone by a time
at which the key was expired. No two keys in the file ever have the same identifier. -/
theorem no_lost_update {directory : Path} {context : List Char} {m : Machine} {rings : List Keyring}
    (hu : m.Undisturbed) (hrings : ∀ ring ∈ rings, ring.IsOf directory context)
    {turns : List (Instant × Nat)} (h0 : ∀ turn ∈ turns, 0 ≤ turn.1.toInt)
    (hclock : turns.Pairwise fun a b => a.1.toInt ≤ b.1.toInt)
    (hbreaks : ((start m rings).run turns).breaks = 0)
    (hslow : ∀ x ∈ ((start m rings).run turns).saves, x.moved.toInt ≤ x.taken.toInt + aheadBy) :
    let c := (start m rings).run turns
    let file := directory.join ⟨context⟩
    (∀ t, ((Keyring.saved c.machine.files c.machine.cwd file t).map (·.id)).Nodup) ∧
    (c.saves = [] → c.machine.files.contents c.machine.cwd file = m.files.contents m.cwd file) ∧
    ∀ last earlier, c.saves = last :: earlier →
      c.machine.files.read c.machine.cwd file = .ok (KeyFile.serialize last.keys) ∧
      (last.keys.map (·.id)).Nodup ∧
      ∀ x ∈ c.saves, ∃ k, x.keys.getLast? = some k ∧ k.created = x.taken ∧
        ((∀ y ∈ c.saves, y.taken.toInt ≤ k.created.toInt + keptFor) →
          k ∈ Keyring.saved c.machine.files c.machine.cwd file last.taken) := by
  intro c file
  obtain ⟨now, hsound⟩ := (sound_start hu hrings).run (Int.le_refl 0) h0 hclock hbreaks hslow
  refine ⟨fun t => (KeyFile.parse_storable _ _).1.distinct, fun hnone => ?_,
    fun last earlier hsome => ?_⟩
  · have hfiled := hsound.filed
    rw [hnone] at hfiled
    exact hfiled
  · have hfiled := hsound.filed
    rw [hsome] at hfiled
    obtain ⟨hsep, hfile, hstorable, -, hlasts⟩ := id hfiled
    refine ⟨hfile.read_eq hsep, hstorable.distinct, fun x hx => ?_⟩
    rw [hsome] at hx
    obtain ⟨-, -, k, hk, hcreated, -⟩ := hlasts x hx
    refine ⟨k, hk, hcreated, fun hkept => ?_⟩
    rw [hsome] at hkept
    exact hfiled.mem_saved (hlasts x hx) (hslow last (hsome ▸ List.mem_cons_self)) hk hkept
      (hkept last List.mem_cons_self)

def sampleRing : Keyring := Keyring.inDirectory ⟨['/', 'h']⟩ ['c'] ⟨2, Duration.ofMillis 5⟩

def sampleMachine : Machine := { Keyring.sampleMachine [([['h']], .directory 0o700)] id with
  random := {
    script := [{ outcome := .ok [5, 0, 0, 0] }, { outcome := .ok [1] },
      { outcome := .ok [6, 0, 0, 0] }]
    after := { outcome := .ok [1] } } }

/-- The second process takes the time and waits while the first one saves a key; then it saves its
own, by the time from before the first save. -/
def sampleTurns : List (Instant × Nat) :=
  [(1000, 0), (1000, 0), (1001, 1), (1001, 1)] ++ List.replicate 8 (1002, 0) ++
    List.replicate 9 (1003, 1)

/-- Both keys are in the second save. -/
theorem no_lost_update_pair :
    let c := (start sampleMachine [sampleRing, sampleRing]).run sampleTurns
    c.breaks = 0 ∧ c.saves.map (fun x => (x.taken, x.moved, x.keys.map (·.id))) =
      [(1001, 1003, [5, 6]), (1000, 1002, [5])] ∧
    ∀ last earlier, c.saves = last :: earlier → ∀ x ∈ c.saves, ∃ k, x.keys.getLast? = some k ∧
      k.created = x.taken ∧ ((∀ y ∈ c.saves, y.taken.toInt ≤ k.created.toInt + keptFor) →
        k ∈ Keyring.saved c.machine.files c.machine.cwd ⟨"/h/c".toList⟩ last.taken) := by
  intro c
  have hu : sampleMachine.Undisturbed :=
    ⟨fun _ _ => rfl, by simp [sampleMachine], fun _ => rfl⟩
  have hrings : ∀ ring ∈ [sampleRing, sampleRing], ring.IsOf ⟨['/', 'h']⟩ ['c'] := by
    have hring : sampleRing.IsOf ⟨['/', 'h']⟩ ['c'] := Keyring.isOf_inDirectory (by decide) _ _
    simp [hring]
  have hbreaks : c.breaks = 0 := by decide +kernel
  have hsaves : c.saves.map (fun x => (x.taken, x.moved, x.keys.map (·.id))) =
      [(1001, 1003, [5, 6]), (1000, 1002, [5])] := by decide +kernel
  have hslow : ∀ x ∈ c.saves, x.moved.toInt ≤ x.taken.toInt + aheadBy := by decide +kernel
  obtain ⟨-, -, hlast⟩ := no_lost_update hu hrings (by decide +kernel)
    (by decide +kernel) hbreaks hslow
  exact ⟨hbreaks, hsaves, fun last earlier hsome => (hlast last earlier hsome).2.2⟩

end Crowd

end Keyrings
