import Keyrings.Proofs.Staleness

/-! How long a lock is waited for, and how the wait ends. Each attempt is made after as many sleeps
as attempts were refused, on the files as others have left them. The first attempt that finds room
for the marker ends the wait and removes nothing; if none does, the last sleep is followed by the
one removal. All sleeps are of the same length, and as many as the policy allows at most. -/

namespace Keyrings

/-! ### Time -/

namespace Machine

/-- Sleeps are recorded one by one. -/
theorem slept_sleeps (timeout : Duration) (n : Nat) (m : Machine) :
    (m.slept timeout n).sleeps = List.replicate n timeout ++ m.sleeps := by
  induction n generalizing m with
  | zero => rfl
  | succ n ih =>
    have hone : (m.answer (.sleep timeout)).2.sleeps = timeout :: m.sleeps := rfl
    rw [slept, ih, hone, List.replicate_succ', List.append_assoc]
    rfl

/-- A change of files is no sleep. -/
theorem change_sleeps (m : Machine) (changed : Except FileError FileTree) :
    (m.change changed).2.sleeps = m.sleeps := by
  cases changed <;> rfl

end Machine

namespace LockPolicy

variable {policy : LockPolicy}

theorem worstCaseWait?_eq_none_iff : policy.worstCaseWait? = none ↔
    Duration.secondsBound * Duration.perSecond ≤ policy.maxTimeouts * policy.timeout.nanos := by
  have hpos : 0 < Duration.perSecond := by decide
  rw [Nat.mul_comm policy.maxTimeouts, ← Nat.le_div_iff_mul_le hpos, ← Nat.not_lt]
  simp only [worstCaseWait?, Duration.times?, ite_eq_right_iff, reduceCtorEq, imp_false]
  rfl

theorem nanos_of_worstCaseWait? {longest : Duration} (h : policy.worstCaseWait? = some longest) :
    longest.nanos = policy.maxTimeouts * policy.timeout.nanos := by
  simp only [worstCaseWait?, Duration.times?] at h
  split_ifs at h
  cases h
  exact Nat.mul_comm _ _

end LockPolicy

/-! ### Places -/

namespace FileTree

variable {t u : FileTree} {cwd l : Location} {p : Path}

/-- A path leads to a name in a directory, which may be that of a file. -/
structure Reaches (t : FileTree) (cwd : Location) (p : Path) (l : Location) : Prop where
  usable : p.IsUsable
  no_separator : p.endsInSeparator = false
  leads : t.Leads cwd p (.name l)
  short : isTooLong l = false

/-- There is room for a file at a path: it leads to a name in a directory, and nothing stands
there. -/
structure HasRoom (t : FileTree) (cwd : Location) (p : Path) (l : Location) : Prop
    extends t.Reaches cwd p l where
  free : t.lookup l = none

structure HasPlain (t : FileTree) (cwd : Location) (p : Path) (l : Location) : Prop
    extends t.Reaches cwd p l where
  file : ∃ mode bytes, t.lookup l = some (.file mode bytes)

theorem reaches_iff : t.Reaches cwd p l ↔
    p.endsInSeparator = false ∧ t.locate cwd p = .ok (.name l) := by
  rw [locate_eq_ok_name]
  exact ⟨fun h => ⟨h.no_separator, h.usable, h.leads, h.short⟩,
    fun ⟨hsep, husable, hleads, hshort⟩ => ⟨husable, hsep, hleads, hshort⟩⟩

/-- Creating needs room, and nothing else. -/
theorem create_eq_ok_iff {mode : Mode} : t.create cwd p mode = .ok u ↔
    ∃ l, t.HasRoom cwd p l ∧ u = t.insert l (.file mode []) := by
  constructor
  · intro h
    have hsep := endsInSeparator_of_create h
    obtain ⟨l, hl, hnone, rfl⟩ := (create_eq_ok hsep).mp h
    exact ⟨l, ⟨reaches_iff.mpr ⟨hsep, hl⟩, hnone⟩, rfl⟩
  · rintro ⟨l, hroom, rfl⟩
    obtain ⟨hsep, hl⟩ := reaches_iff.mp hroom.toReaches
    exact (create_eq_ok hsep).mpr ⟨l, hl, hroom.free, rfl⟩

/-- Removing needs a plain file. -/
theorem remove_eq_ok_iff : t.remove cwd p = .ok u ↔ ∃ l, t.HasPlain cwd p l ∧ u = t.erase l := by
  constructor
  · intro h
    have hsep := endsInSeparator_of_remove h
    obtain ⟨l, mode, bytes, hl, hlook, rfl⟩ := (remove_eq_ok hsep).mp h
    exact ⟨l, ⟨reaches_iff.mpr ⟨hsep, hl⟩, mode, bytes, hlook⟩, rfl⟩
  · rintro ⟨l, hplain, rfl⟩
    obtain ⟨hsep, hl⟩ := reaches_iff.mp hplain.toReaches
    obtain ⟨mode, bytes, hlook⟩ := hplain.file
    exact (remove_eq_ok hsep).mpr ⟨l, mode, bytes, hl, hlook, rfl⟩

/-- The place of a file that was removed is free. -/
theorem HasPlain.room (h : t.HasPlain cwd p l) : (t.erase l).HasRoom cwd p l := by
  obtain ⟨hsep, hl⟩ := reaches_iff.mp h.toReaches
  obtain ⟨mode, bytes, hlook⟩ := h.file
  have hsame := sameDirectories_erase (not_hasDirectory_of_file hlook)
  exact ⟨reaches_iff.mpr ⟨hsep, hsame.locate_eq_ok hl⟩, lookup_erase_self t (locate_ne_nil hl)⟩

/-- A place is free or taken. -/
theorem HasRoom.not_plain (h : t.HasRoom cwd p l) (k : Location) : ¬ t.HasPlain cwd p k := by
  intro hplain
  have hl := (reaches_iff.mp h.toReaches).2
  rw [(reaches_iff.mp hplain.toReaches).2] at hl
  cases hl
  obtain ⟨mode, bytes, hlook⟩ := hplain.file
  rw [h.free] at hlook
  contradiction

end FileTree

/-! ### Attempts -/

namespace Lock

variable {marker : Path} {timeout : Duration} {m : Machine} {l : Location}

theorem refused_iff {i : Nat} : Refused marker timeout m i ↔
    ∀ l, ¬ (m.slept timeout i).files.HasRoom m.cwd marker l := by
  unfold Refused
  cases hc : (m.slept timeout i).files.create m.cwd marker privateFileMode with
  | ok u =>
    obtain ⟨l, hroom, -⟩ := FileTree.create_eq_ok_iff.mp hc
    exact iff_of_false (by simp) fun h => h l hroom
  | error e =>
    refine iff_of_true ⟨e, rfl⟩ fun l hroom => ?_
    rw [FileTree.create_eq_ok_iff.mpr ⟨l, hroom, rfl⟩] at hc
    contradiction

/-- Some attempts, each with the sleep after it, and the machines that these requests are made
to. -/
def waits (marker : Path) (timeout : Duration) (m : Machine) (n : Nat) : List (Request × Machine) :=
  (List.range n).flatMap fun i =>
    [(.create marker privateFileMode, m.slept timeout i), (.sleep timeout, m.slept timeout i)]

theorem waits_succ (n : Nat) : waits marker timeout m (n + 1) =
    (.create marker privateFileMode, m) :: (.sleep timeout, m) ::
      waits marker timeout (m.answer (.sleep timeout)).2 n := by
  rw [waits, List.range_succ_eq_map, List.flatMap_cons, List.flatMap_map]
  rfl

/-- Attempts that are refused lead to the attempt after them. The induction is on their number. -/
theorem attempt_refused {j : Nat} (h : ∀ i < j, Refused marker timeout m i) (n : Nat) :
    (attempt marker timeout (j + n)).requests m =
      waits marker timeout m j ++ (attempt marker timeout n).requests (m.slept timeout j) ∧
    (attempt marker timeout (j + n)).run m =
      (attempt marker timeout n).run (m.slept timeout j) := by
  induction j generalizing m with
  | zero =>
    rw [Nat.zero_add]
    exact ⟨rfl, rfl⟩
  | succ j ih =>
    obtain ⟨e, he⟩ := h 0 (Nat.succ_pos j)
    have hanswer : m.answer (.create marker privateFileMode) = (.error e, m) := by
      have hc : m.files.create m.cwd marker privateFileMode = .error e := he
      simp only [Machine.answer, hc, Machine.change_error]
    have hlater : ∀ i < j, Refused marker timeout (m.answer (.sleep timeout)).2 i :=
      fun i hi => h (i + 1) (Nat.succ_lt_succ hi)
    obtain ⟨hrequests, hrun⟩ := ih hlater
    rw [Nat.add_right_comm, waits_succ]
    simp only [attempt, Routine.request, Routine.bind_eq, Routine.ask_bind, Routine.done_bind,
      Routine.requests_ask, Routine.run_ask, hanswer]
    rw [hrequests, hrun]
    exact ⟨rfl, rfl⟩

/-- An attempt that finds room is the last request. -/
theorem attempt_room (h : m.files.HasRoom m.cwd marker l) (timeout : Duration) (n : Nat) :
    (attempt marker timeout (n + 1)).requests m = [(.create marker privateFileMode, m)] ∧
    (attempt marker timeout (n + 1)).run m =
      (.ok ⟨marker⟩, { m with files := m.files.insert l (.file privateFileMode []) }) := by
  have hc : m.files.create m.cwd marker privateFileMode = .ok _ :=
    FileTree.create_eq_ok_iff.mpr ⟨l, h, rfl⟩
  simp [attempt, Routine.request, Machine.answer, hc, Machine.change_ok]

/-! ### After the last sleep -/

theorem seize_requests (marker : Path) (m : Machine) : (seize marker).requests m =
    [(.remove marker, m), (.create marker privateFileMode, (m.answer (.remove marker)).2)] := by
  simp only [seize, Routine.request, Routine.bind_eq, Routine.ask_bind, Routine.done_bind,
    Routine.requests_ask]
  cases ((m.answer (.remove marker)).2.answer (.create marker privateFileMode)).1 <;> rfl

theorem seize_run_eq (marker : Path) (m : Machine) :
    let cleared := (m.answer (.remove marker)).2
    (seize marker).run m = match cleared.files.create cleared.cwd marker privateFileMode with
      | .ok u => (.ok ⟨marker⟩, { cleared with files := u })
      | .error e => (.error (.failed (.markerStuck marker e)), cleared) := by
  simp only [seize, Routine.request, Routine.bind_eq, Routine.ask_bind, Routine.done_bind,
    Routine.run_ask]
  generalize (m.answer (.remove marker)).2 = cleared
  simp only [Machine.answer]
  cases cleared.files.create cleared.cwd marker privateFileMode <;> rfl

theorem seize_sleeps (marker : Path) (m : Machine) :
    ((seize marker).run m).2.sleeps = m.sleeps := by
  have hcleared : (m.answer (.remove marker)).2.sleeps = m.sleeps := m.change_sleeps _
  rw [seize_run_eq, ← hcleared]
  split <;> rfl

/-- A plain file makes place for the marker. -/
theorem seize_plain (h : m.files.HasPlain m.cwd marker l) : (seize marker).run m = (.ok ⟨marker⟩,
    { m with files := (m.files.erase l).insert l (.file privateFileMode []) }) := by
  have hr := FileTree.remove_eq_ok_iff.mpr ⟨l, h, rfl⟩
  have hc : (m.files.erase l).create m.cwd marker privateFileMode = .ok _ :=
    FileTree.create_eq_ok_iff.mpr ⟨l, h.room, rfl⟩
  have hcleared : (m.answer (.remove marker)).2 = { m with files := m.files.erase l } := by
    simp only [Machine.answer, hr, Machine.change_ok]
  simp only [seize_run_eq, hcleared, hc]

/-- Where no plain file stands nothing is removed. -/
theorem cleared_eq (h : ∀ l, ¬ m.files.HasPlain m.cwd marker l) :
    (m.answer (.remove marker)).2 = m := by
  cases hr : m.files.remove m.cwd marker with
  | ok u =>
    obtain ⟨l, hplain, -⟩ := FileTree.remove_eq_ok_iff.mp hr
    exact absurd hplain (h l)
  | error e => simp only [Machine.answer, hr, Machine.change_error]

theorem seize_room (h : m.files.HasRoom m.cwd marker l) : (seize marker).run m = (.ok ⟨marker⟩,
    { m with files := m.files.insert l (.file privateFileMode []) }) := by
  have hc : m.files.create m.cwd marker privateFileMode = .ok _ :=
    FileTree.create_eq_ok_iff.mpr ⟨l, h, rfl⟩
  simp only [seize_run_eq, cleared_eq h.not_plain, hc]

theorem seize_stuck (hplain : ∀ l, ¬ m.files.HasPlain m.cwd marker l)
    (hroom : ∀ l, ¬ m.files.HasRoom m.cwd marker l) :
    ∃ e, (seize marker).run m = (.error (.failed (.markerStuck marker e)), m) := by
  cases hc : m.files.create m.cwd marker privateFileMode with
  | ok u =>
    obtain ⟨l, hroom', -⟩ := FileTree.create_eq_ok_iff.mp hc
    exact absurd hroom' (hroom l)
  | error e =>
    refine ⟨e, ?_⟩
    simp only [seize_run_eq, cleared_eq hplain, hc]

/-! ### The whole wait -/

variable {policy : LockPolicy}

/-- The first attempt that finds room. -/
theorem acquire_room {i : Nat} (hi : i < policy.maxTimeouts)
    (hbefore : ∀ j < i, Refused marker policy.timeout m j)
    (h : (m.slept policy.timeout i).files.HasRoom m.cwd marker l) :
    (acquire marker policy).requests m = waits marker policy.timeout m i ++
      [(.create marker privateFileMode, m.slept policy.timeout i)] ∧
    (acquire marker policy).run m = (.ok ⟨marker⟩, { m.slept policy.timeout i with
      files := (m.slept policy.timeout i).files.insert l (.file privateFileMode []) }) := by
  obtain ⟨left, hleft⟩ := Nat.exists_eq_add_of_lt hi
  obtain ⟨hrequests, hrun⟩ := attempt_refused hbefore (left + 1)
  rw [← Machine.slept_cwd policy.timeout i m] at h
  obtain ⟨hrequests', hrun'⟩ := attempt_room h policy.timeout left
  rw [acquire, hleft, Nat.add_assoc, hrequests, hrun, hrequests', hrun']
  exact ⟨rfl, rfl⟩

/-- The wait that no attempt ends. -/
theorem acquire_refused (h : ∀ i < policy.maxTimeouts, Refused marker policy.timeout m i) :
    (acquire marker policy).requests m = waits marker policy.timeout m policy.maxTimeouts ++
      (seize marker).requests (m.slept policy.timeout policy.maxTimeouts) ∧
    (acquire marker policy).run m =
      (seize marker).run (m.slept policy.timeout policy.maxTimeouts) :=
  attempt_refused h 0

/-- All attempts are refused, or there is a first one that is not. -/
theorem refused_or_room (marker : Path) (timeout : Duration) (m : Machine) (n : Nat) :
    (∀ i < n, Refused marker timeout m i) ∨ ∃ i < n, (∀ j < i, Refused marker timeout m j) ∧
      ∃ l, (m.slept timeout i).files.HasRoom m.cwd marker l := by
  induction n with
  | zero => exact Or.inl fun i hi => absurd hi (Nat.not_lt_zero i)
  | succ n ih =>
    rcases ih with hall | ⟨i, hi, hfirst⟩
    · by_cases hn : Refused marker timeout m n
      · refine Or.inl fun i hi => ?_
        rcases Nat.lt_succ_iff_lt_or_eq.mp hi with hlt | rfl
        · exact hall i hlt
        · exact hn
      · rw [refused_iff] at hn
        exact Or.inr ⟨n, Nat.lt_succ_self n, hall, not_forall_not.mp hn⟩
    · exact Or.inr ⟨i, Nat.lt_succ_of_lt hi, hfirst⟩

/-- An acquisition sleeps as often as its policy allows at most, and for the timeout each time. -/
theorem acquire_sleeps (marker : Path) (policy : LockPolicy) (m : Machine) :
    ∃ n ≤ policy.maxTimeouts, ((acquire marker policy).run m).2.sleeps =
      List.replicate n policy.timeout ++ m.sleeps := by
  have hcases := refused_or_room marker policy.timeout m policy.maxTimeouts
  rcases hcases with hall | ⟨i, hi, hbefore, l, hroom⟩
  · refine ⟨policy.maxTimeouts, Nat.le_refl _, ?_⟩
    rw [(acquire_refused hall).2, seize_sleeps, Machine.slept_sleeps]
  · refine ⟨i, Nat.le_of_lt hi, ?_⟩
    rw [(acquire_room hi hbefore hroom).2]
    exact Machine.slept_sleeps policy.timeout i m

/-- What comes after the last sleep, if every attempt was refused: a plain file at the path of the
marker is removed and the marker takes its place; where nothing stands the marker is put there; and
otherwise the lock is not taken, and the files are as the last sleep has left them. -/
structure Seized (marker : Path) (policy : LockPolicy) (m last : Machine) : Prop where
  requests_eq : ∃ cleared, (acquire marker policy).requests m =
    waits marker policy.timeout m policy.maxTimeouts ++
      [(.remove marker, last), (.create marker privateFileMode, cleared)]
  stale : ∀ l, last.files.HasPlain m.cwd marker l → (acquire marker policy).run m =
    (.ok ⟨marker⟩, { last with
      files := (last.files.erase l).insert l (.file privateFileMode []) })
  vacant : ∀ l, last.files.HasRoom m.cwd marker l → (acquire marker policy).run m =
    (.ok ⟨marker⟩, { last with files := last.files.insert l (.file privateFileMode []) })
  stuck : (∀ l, ¬ last.files.HasPlain m.cwd marker l) →
    (∀ l, ¬ last.files.HasRoom m.cwd marker l) →
    ∃ e, (acquire marker policy).run m = (.error (.failed (.markerStuck marker e)), last)

/-- A lock is taken by the first attempt that finds room for its marker: an empty file is put
there, nothing is removed, and there was one sleep for each attempt before. If no attempt does,
there are as many sleeps as the policy has attempts, and then the removal. Each sleep is as long as
the policy says, and together they are no longer than its longest wait, the product of the two
numbers, which is too long only from 2 ^ 64 seconds on. -/
theorem acquire_exact (marker : Path) (policy : LockPolicy) (m : Machine) :
    (∀ i < policy.maxTimeouts, ∀ l,
      (∀ j < i, ∀ k, ¬ (m.slept policy.timeout j).files.HasRoom m.cwd marker k) →
      (m.slept policy.timeout i).files.HasRoom m.cwd marker l →
      (acquire marker policy).requests m = waits marker policy.timeout m i ++
        [(.create marker privateFileMode, m.slept policy.timeout i)] ∧
      (acquire marker policy).run m = (.ok ⟨marker⟩, { m.slept policy.timeout i with
        files := (m.slept policy.timeout i).files.insert l (.file privateFileMode []) })) ∧
    ((∀ i < policy.maxTimeouts, ∀ l,
        ¬ (m.slept policy.timeout i).files.HasRoom m.cwd marker l) →
      Seized marker policy m (m.slept policy.timeout policy.maxTimeouts)) ∧
    (∀ i, (m.slept policy.timeout i).sleeps = List.replicate i policy.timeout ++ m.sleeps) ∧
    (∃ n ≤ policy.maxTimeouts,
      ((acquire marker policy).run m).2.sleeps = List.replicate n policy.timeout ++ m.sleeps ∧
      ∀ longest, policy.worstCaseWait? = some longest →
        n * policy.timeout.nanos ≤ longest.nanos) ∧
    (∀ longest, policy.worstCaseWait? = some longest →
      longest.nanos = policy.maxTimeouts * policy.timeout.nanos) ∧
    (policy.worstCaseWait? = none ↔ Duration.secondsBound * Duration.perSecond ≤
      policy.maxTimeouts * policy.timeout.nanos) := by
  refine ⟨fun i hi l hbefore hroom => ?_, fun hall => ?_,
    fun i => Machine.slept_sleeps policy.timeout i m, ?_,
    fun longest => LockPolicy.nanos_of_worstCaseWait?, LockPolicy.worstCaseWait?_eq_none_iff⟩
  · exact acquire_room hi (fun j hj => refused_iff.mpr (hbefore j hj)) hroom
  · obtain ⟨hrequests, hrun⟩ := acquire_refused fun i hi => refused_iff.mpr (hall i hi)
    have hcwd := Machine.slept_cwd policy.timeout policy.maxTimeouts m
    refine ⟨⟨_, by rw [hrequests, seize_requests]⟩, fun l hplain => ?_, fun l hroom => ?_,
      fun hplain hroom => ?_⟩
    · rw [← hcwd] at hplain
      rw [hrun, seize_plain hplain]
    · rw [← hcwd] at hroom
      rw [hrun, seize_room hroom]
    · rw [← hcwd] at hplain hroom
      rw [hrun]
      exact seize_stuck hplain hroom
  · obtain ⟨n, hn, hsleeps⟩ := acquire_sleeps marker policy m
    refine ⟨n, hn, hsleeps, fun longest hlongest => ?_⟩
    rw [LockPolicy.nanos_of_worstCaseWait? hlongest]
    exact Nat.mul_le_mul_right _ hn

def awaited : Path := ⟨"/h/c.lock".toList⟩

def twice : LockPolicy := ⟨2, Duration.ofMillis 5⟩

/-- A marker that its holder removes during the first sleep is not there at the second attempt, and
one that nobody removes is replaced after the second sleep. -/
theorem acquire_exact_twice :
    (acquire awaited twice).requests Keyring.contended =
      waits awaited twice.timeout Keyring.contended 1 ++
        [(.create awaited privateFileMode, Keyring.contended.slept twice.timeout 1)] ∧
    ((acquire awaited twice).run abandoned).1 = .ok ⟨awaited⟩ ∧
    ((acquire awaited twice).run abandoned).2.sleeps =
      [Duration.ofMillis 5, Duration.ofMillis 5] ∧
    2 * twice.timeout.nanos ≤ 10000000 := by
  have hreaches : ∀ {t : FileTree},
      t.locate [] awaited = .ok (.name [['h'], "c.lock".toList]) →
      t.Reaches [] awaited [['h'], "c.lock".toList] :=
    fun ht => FileTree.reaches_iff.mpr ⟨by decide, ht⟩
  obtain ⟨hfirst, -, -, -⟩ := acquire_exact awaited twice Keyring.contended
  obtain ⟨-, hlast, hsleeps, -, hlongest, -⟩ := acquire_exact awaited twice abandoned
  have hheld : ∀ j < 1, ∀ k,
      ¬ (Keyring.contended.slept twice.timeout j).files.HasRoom [] awaited k := by
    intro j hj
    obtain rfl : j = 0 := Nat.lt_one_iff.mp hj
    exact refused_iff.mp ⟨.exists, by decide +kernel⟩
  have hleft : ∀ i < 2, ∀ l,
      ¬ (abandoned.slept twice.timeout i).files.HasRoom [] awaited l := by
    intro i hi
    match i, hi with
    | 0, _ => exact refused_iff.mp ⟨.exists, by decide +kernel⟩
    | 1, _ => exact refused_iff.mp ⟨.exists, by decide +kernel⟩
  have hstale := (hlast hleft).stale [['h'], "c.lock".toList]
    ⟨hreaches rfl, 0o600, [], by decide +kernel⟩
  refine ⟨(hfirst 1 (by decide) _ hheld ⟨hreaches rfl, by decide +kernel⟩).1, ?_, ?_, ?_⟩
  · rw [hstale]
  · rw [hstale]
    exact hsleeps 2
  · exact Nat.le_of_eq (hlongest ⟨10000000⟩ (by decide)).symm

end Lock

end Keyrings
