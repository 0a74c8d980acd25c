import Keyrings.Proofs.Attempts
import Keyrings.Proofs.Footprint
import Keyrings.Proofs.Reload

/-! Which marker is taken for abandoned. An acquisition knows nothing of a marker but that each of
its attempts was refused, and it removes the file that it finds after its last sleep. So what it
removes was there for the whole wait, or others put it there in a sleep that began with a refusal: a
marker that goes and is back within one sleep is never seen to be gone. -/

namespace Keyrings

namespace Routine

variable {α : Type}

/-- The requests of a run, each with the machine that it is made to. -/
def requests : Routine α → Machine → List (Request × Machine)
  | done _, _ => []
  | ask r next, m => (r, m) :: (next (m.answer r).1).requests (m.answer r).2

@[simp] theorem requests_done (a : α) (m : Machine) : (done a).requests m = [] := rfl

@[simp] theorem requests_ask (r : Request) (next : r.Answer → Routine α) (m : Machine) :
    (ask r next).requests m = (r, m) :: (next (m.answer r).1).requests (m.answer r).2 := rfl

end Routine

namespace Machine

/-- A machine after some sleeps, in which others alone change files. -/
def slept (timeout : Duration) : Nat → Machine → Machine
  | 0, m => m
  | n + 1, m => slept timeout n (m.answer (.sleep timeout)).2

theorem slept_cwd (timeout : Duration) (n : Nat) (m : Machine) :
    (m.slept timeout n).cwd = m.cwd := by
  induction n generalizing m with
  | zero => rfl
  | succ n ih => exact ih (m.answer (.sleep timeout)).2

/-- Each sleep ends with what others do to the files. -/
theorem slept_files (timeout : Duration) (n : Nat) (m : Machine) :
    (m.slept timeout (n + 1)).files = m.others (m.sleepCount + n) (m.slept timeout n).files := by
  induction n generalizing m with
  | zero => rfl
  | succ n ih =>
    have hcount : (m.answer (.sleep timeout)).2.sleepCount + n = m.sleepCount + (n + 1) :=
      Nat.succ_add_eq_add_succ m.sleepCount n
    have hslept := ih (m.answer (.sleep timeout)).2
    rwa [hcount] at hslept

end Machine

namespace Lock

def Refused (marker : Path) (timeout : Duration) (m : Machine) (i : Nat) : Prop :=
  ∃ e, (m.slept timeout i).files.create m.cwd marker privateFileMode = .error e

def Stood (marker : Path) (timeout : Duration) (m : Machine) (mode : Mode) (bytes : List UInt8)
    (i : Nat) : Prop :=
  (m.slept timeout i).files.FileAt m.cwd marker mode bytes

/-- An acquisition takes a file in the place of its marker for abandoned, and removes it. -/
def Breaks (marker : Path) (policy : LockPolicy) (m : Machine) (mode : Mode)
    (bytes : List UInt8) : Prop :=
  ∃ m' t, (Request.remove marker, m') ∈ (acquire marker policy).requests m ∧
    m'.files.remove m'.cwd marker = .ok t ∧ m'.files.FileAt m'.cwd marker mode bytes

variable {marker : Path} {policy : LockPolicy} {timeout : Duration} {m m' : Machine} {mode : Mode}
  {bytes : List UInt8}

/-- An attempt is not refused where nothing stands. -/
theorem Refused.lookup_ne_none {i : Nat} (h : Refused marker timeout m i)
    (hsep : marker.endsInSeparator = false) {l : Location}
    (hl : (m.slept timeout i).files.locate m.cwd marker = .ok (.name l)) :
    (m.slept timeout i).files.lookup l ≠ none := by
  intro hnone
  obtain ⟨e, he⟩ := h
  rw [(FileTree.create_eq_ok hsep).mpr ⟨l, hl, hnone, rfl⟩] at he
  contradiction

/-- The marker is removed after the last sleep, if every attempt was refused. The induction is on
the attempts left. -/
theorem mem_requests_attempt (n : Nat) :
    (Request.remove marker, m') ∈ (attempt marker timeout n).requests m ↔
      (∀ i < n, Refused marker timeout m i) ∧ m' = m.slept timeout n := by
  induction n generalizing m with
  | zero =>
    simp only [attempt, seize, Routine.request, Routine.bind_eq, Routine.ask_bind,
      Routine.done_bind, Routine.requests_ask, List.mem_cons, Prod.mk.injEq, true_and,
      Machine.slept, Nat.not_lt_zero, false_imp_iff, implies_true]
    generalize ((m.answer (.remove marker)).2.answer (.create marker privateFileMode)).1 = answer
    cases answer <;> simp
  | succ n ih =>
    rw [Nat.forall_lt_succ_left]
    simp only [attempt, Routine.request, Routine.bind_eq, Routine.ask_bind, Routine.done_bind,
      Routine.requests_ask, List.mem_cons, Prod.mk.injEq, reduceCtorEq, false_and, false_or]
    cases hc : m.files.create m.cwd marker privateFileMode with
    | ok u =>
      have htaken : ¬ Refused marker timeout m 0 := by
        rintro ⟨e, he⟩
        rw [Machine.slept, hc] at he
        contradiction
      simp [Machine.answer, hc, Machine.change_ok, htaken]
    | error e =>
      have hanswer : m.answer (.create marker privateFileMode) = (.error e, m) := by
        simp only [Machine.answer, hc, Machine.change_error]
      have hrefused : Refused marker timeout m 0 := ⟨e, hc⟩
      simp only [hanswer, Routine.requests_ask, List.mem_cons, Prod.mk.injEq, reduceCtorEq,
        false_and, false_or, ih, hrefused, true_and]
      rfl

theorem breaks_iff : Breaks marker policy m mode bytes ↔ marker.endsInSeparator = false ∧
    (∀ i < policy.maxTimeouts, Refused marker policy.timeout m i) ∧
    Stood marker policy.timeout m mode bytes policy.maxTimeouts := by
  simp only [Breaks, acquire, mem_requests_attempt, Stood]
  constructor
  · rintro ⟨m', t, ⟨hrefused, rfl⟩, hremove, hfile⟩
    rw [Machine.slept_cwd] at hfile
    exact ⟨FileTree.endsInSeparator_of_remove hremove, hrefused, hfile⟩
  · rintro ⟨hsep, hrefused, l, hl, hlook⟩
    have hremove := (FileTree.remove_eq_ok hsep).mpr ⟨l, mode, bytes, hl, hlook, rfl⟩
    refine ⟨_, (m.slept policy.timeout policy.maxTimeouts).files.erase l, ⟨hrefused, rfl⟩, ?_⟩
    rw [Machine.slept_cwd]
    exact ⟨hremove, l, hl, hlook⟩

/-- What holds at last has held all along, or since it came about after some moment. The induction
is on the time since when it is known to hold. -/
theorem always_or_since {P : Nat → Prop} {n : Nat} (k : Nat)
    (h : ∀ i, k ≤ i → i ≤ n → P i) (hk : k ≤ n) :
    (∀ i ≤ n, P i) ∨ ∃ i < n, ¬ P i ∧ ∀ j, i < j → j ≤ n → P j := by
  induction k with
  | zero => exact Or.inl fun i hi => h i (Nat.zero_le i) hi
  | succ k ih =>
    by_cases hP : P k
    · refine ih (fun i hki hi => ?_) (by omega)
      rcases Nat.eq_or_lt_of_le hki with rfl | hlt
      · exact hP
      · exact h i hlt hi
    · exact Or.inr ⟨k, hk, hP, fun j hj => h j hj⟩

/-- A file is taken for abandoned exactly if every attempt was refused and the file stands in the
place of the marker after the last sleep. So none is if an attempt finds the place free. A file that
is taken for abandoned stood there at every attempt, or others put it there in a sleep that followed
on a refusal, and it stood there at every attempt after that. -/
theorem breaks_exactly (marker : Path) (policy : LockPolicy) (m : Machine) (mode : Mode)
    (bytes : List UInt8) :
    (Breaks marker policy m mode bytes ↔ marker.endsInSeparator = false ∧
      (∀ i < policy.maxTimeouts, Refused marker policy.timeout m i) ∧
      Stood marker policy.timeout m mode bytes policy.maxTimeouts) ∧
    (∀ i < policy.maxTimeouts, ∀ l,
      (m.slept policy.timeout i).files.locate m.cwd marker = .ok (.name l) →
      (m.slept policy.timeout i).files.lookup l = none → ¬ Breaks marker policy m mode bytes) ∧
    (Breaks marker policy m mode bytes →
      (∀ i < policy.maxTimeouts, Stood marker policy.timeout m mode bytes i) ∨
      ∃ i < policy.maxTimeouts, Refused marker policy.timeout m i ∧
        ¬ Stood marker policy.timeout m mode bytes i ∧
        (m.others (m.sleepCount + i) (m.slept policy.timeout i).files).FileAt m.cwd marker mode
          bytes ∧
        ∀ j, i < j → j < policy.maxTimeouts → Stood marker policy.timeout m mode bytes j) := by
  refine ⟨breaks_iff, fun i hi l hl hfree hbreaks => ?_, fun hbreaks => ?_⟩
  · obtain ⟨hsep, hrefused, -⟩ := breaks_iff.mp hbreaks
    exact (hrefused i hi).lookup_ne_none hsep hl hfree
  · obtain ⟨-, hrefused, hlast⟩ := breaks_iff.mp hbreaks
    have hends : ∀ i, policy.maxTimeouts ≤ i → i ≤ policy.maxTimeouts →
        Stood marker policy.timeout m mode bytes i := by
      intro i hle hge
      rwa [Nat.le_antisymm hge hle]
    have hcases := always_or_since policy.maxTimeouts hends (Nat.le_refl _)
    rcases hcases with hall | ⟨i, hi, hnot, hsince⟩
    · exact Or.inl fun i hi => hall i (Nat.le_of_lt hi)
    · have hput := hsince (i + 1) (Nat.lt_succ_self i) hi
      rw [Stood, Machine.slept_files] at hput
      refine Or.inr ⟨i, hi, hrefused i hi, hnot, hput, fun j hij hj => ?_⟩
      exact hsince j hij (Nat.le_of_lt hj)

/-- A marker that nobody comes back for. -/
def abandoned : Machine :=
  Keyring.sampleMachine [([['h']], .directory 0o700), ([['h'], "c.lock".toList], .file 0o600 [])] id

theorem refused_of_exists {m : Machine}
    (h : m.files.create m.cwd Keyring.sampleRing.marker privateFileMode = .error .exists) :
    ∀ i < Keyring.sampleRing.policy.maxTimeouts,
      Refused Keyring.sampleRing.marker Keyring.sampleRing.policy.timeout m i := by
  intro i hi
  obtain rfl : i = 0 := Nat.lt_one_iff.mp hi
  exact ⟨.exists, h⟩

theorem breaks_exactly_abandoned :
    Breaks Keyring.sampleRing.marker Keyring.sampleRing.policy abandoned 0o600 [] ∧
    Stood Keyring.sampleRing.marker Keyring.sampleRing.policy.timeout abandoned 0o600 [] 0 := by
  obtain ⟨hiff, -, hstood⟩ := breaks_exactly Keyring.sampleRing.marker Keyring.sampleRing.policy
    abandoned 0o600 []
  have hbreaks := hiff.mpr ⟨by decide, refused_of_exists (by decide +kernel),
    [['h'], "c.lock".toList], rfl, by decide +kernel⟩
  rcases hstood hbreaks with hall | ⟨i, hi, -, hnot, -⟩
  · exact ⟨hbreaks, hall 0 Nat.one_pos⟩
  · obtain rfl : i = 0 := Nat.lt_one_iff.mp hi
    exact absurd ⟨[['h'], "c.lock".toList], rfl, by decide +kernel⟩ hnot

/-- A holder gives its lock back during the sleep, and somebody else takes the lock at once. -/
def relayed : Machine :=
  Keyring.sampleMachine [([['h']], .directory 0o700), ([['h'], "c.lock".toList], .file 0o600 [])]
    fun t => (t.erase [['h'], "c.lock".toList]).insert [['h'], "c.lock".toList] (.file 0o600 [1])

/-- The new marker was there at no attempt, and is taken for abandoned all the same. -/
theorem breaks_relayed : ¬ ∀ (marker : Path) (policy : LockPolicy) (m : Machine) (mode : Mode)
    (bytes : List UInt8), 1 ≤ policy.maxTimeouts → Breaks marker policy m mode bytes →
    ∀ i < policy.maxTimeouts, Stood marker policy.timeout m mode bytes i := by
  intro h
  have hbreaks : Breaks Keyring.sampleRing.marker Keyring.sampleRing.policy relayed 0o600 [1] :=
    breaks_iff.mpr ⟨by decide, refused_of_exists (by decide +kernel),
      [['h'], "c.lock".toList], rfl, by decide +kernel⟩
  obtain ⟨l, hl, hlook⟩ := h _ _ _ _ _ (Nat.le_refl 1) hbreaks 0 Nat.one_pos
  cases hl
  exact absurd hlook (by decide +kernel)

end Lock

end Keyrings
