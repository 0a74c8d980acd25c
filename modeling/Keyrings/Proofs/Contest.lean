import Keyrings.Proofs.Attempts
import Mathlib.Data.List.Basic

/-! Any number of processes that contend for one lock. They take turns request by request, each with
a policy of its own, and may crash at any point. A marker does not say whose it is, so that breaking
one that is not abandoned lets a second process in, and giving that lock back takes the marker of
yet another one away. What holds all the same is that every holder but one costs a broken marker. -/

namespace Keyrings

inductive Client
  | idle
  /-- It takes the lock, and that much of it is left. -/
  | waiting (rest : Routine (Except Fault Lock))
  | holding (lock : Lock)
  | crashed

namespace Client

def isHolding : Client → Bool
  | holding _ => true
  | _ => false

/-- A process that takes the lock, by what is left of that. -/
def taking : Routine (Except Fault Lock) → Client
  | .done (.ok lock) => holding lock
  | .done (.error _) => idle
  | .ask request next => waiting (.ask request next)

end Client

inductive Move
  /-- It starts to take the lock. -/
  | start (policy : LockPolicy)
  /-- It makes one request to take the lock. -/
  | proceed
  /-- It gives the lock back. -/
  | release
  | crash

/-- Processes on one machine with one marker between them, and how many markers were removed as
abandoned. -/
structure Contest where
  marker : Path
  machine : Machine
  clients : List Client
  broken : Nat := 0

namespace Contest

def begin (marker : Path) (machine : Machine) (n : Nat) : Contest :=
  ⟨marker, machine, List.replicate n .idle, 0⟩

def holders (c : Contest) : Nat := c.clients.countP Client.isHolding

def markers (c : Contest) : Nat := if c.machine.files.hasFile c.machine.cwd c.marker then 1 else 0

def put (c : Contest) (i : Nat) (client : Client) (m : Machine) : Contest :=
  { c with machine := m, clients := c.clients.set i client }

/-- A process does something; what it cannot do changes nothing. -/
def step (c : Contest) (i : Nat) (move : Move) : Contest :=
  match c.clients[i]?, move with
  | some .idle, .start policy =>
    c.put i (.taking (Lock.acquire c.marker policy)) c.machine
  | some (.waiting rest), .proceed =>
    let (rest', m) := rest.step c.machine
    let breaks := rest.removes c.marker &&
      (c.machine.files.remove c.machine.cwd c.marker).isOk
    { c.put i (.taking rest') m with broken := c.broken + if breaks then 1 else 0 }
  | some (.holding lock), .release => c.put i .idle (lock.release.run c.machine).2
  | some _, .crash => c.put i .crashed c.machine
  | _, _ => c

def run (c : Contest) (moves : List (Nat × Move)) : Contest :=
  moves.foldl (fun c move => c.step move.1 move.2) c

/-! ### What one move changes -/

/-- What a list counts changes with one entry. -/
theorem countP_set_add {α : Type} {p : α → Bool} {xs : List α} {i : Nat} {x : α}
    (h : xs[i]? = some x) (y : α) : (xs.set i y).countP p + (if p x then 1 else 0) =
      xs.countP p + if p y then 1 else 0 := by
  obtain ⟨hi, rfl⟩ := List.getElem?_eq_some_iff.mp h
  have hone : (if p xs[i] then 1 else 0) ≤ xs.countP p := by
    split_ifs with hp
    · exact List.countP_pos_iff.mpr ⟨_, List.getElem_mem hi, hp⟩
    · exact Nat.zero_le _
  rw [List.countP_set hi]
  omega

/-- What holds throughout: everybody waits for this marker or has a lock on it, and the holders
are no more than the markers, standing and broken. -/
structure Accounted (c : Contest) : Prop where
  apart : ∀ n t, (c.machine.others n t).hasFile c.machine.cwd c.marker =
    t.hasFile c.machine.cwd c.marker
  waits : ∀ rest, .waiting rest ∈ c.clients → ∃ w timeout, rest = Lock.Wait.rest c.marker timeout w
  locks : ∀ lock, .holding lock ∈ c.clients → lock = ⟨c.marker⟩
  bound : c.holders ≤ c.broken + c.markers

namespace Accounted

variable {c : Contest} {i : Nat} {old : Client} {m : Machine}

/-- A process that becomes another one, on a machine that differs in its files, keeps the accounts
if the lock it gains and the markers from before are covered by the lock it gives up, the markers
after it and those that are broken by then. -/
theorem put (h : c.Accounted) (hi : c.clients[i]? = some old) (new : Client) (broken : Nat)
    (hcwd : m.cwd = c.machine.cwd) (hothers : m.others = c.machine.others)
    (hwaits : ∀ rest, new = .waiting rest → ∃ w timeout, rest = Lock.Wait.rest c.marker timeout w)
    (hlocks : ∀ lock, new = .holding lock → lock = ⟨c.marker⟩)
    (hpaid : (if new.isHolding then 1 else 0) + c.broken + c.markers ≤
      (if old.isHolding then 1 else 0) + broken + (c.put i new m).markers) :
    Accounted { c.put i new m with broken := broken } where
  apart n t := by
    have happart := h.apart n t
    simp only [Contest.put]
    rw [hcwd, hothers, happart]
  waits rest hrest := by
    rcases List.mem_or_eq_of_mem_set hrest with hrest | hrest
    · exact h.waits rest hrest
    · exact hwaits rest hrest.symm
  locks lock hlock := by
    rcases List.mem_or_eq_of_mem_set hlock with hlock | hlock
    · exact h.locks lock hlock
    · exact hlocks lock hlock.symm
  bound := by
    have hcount := countP_set_add (p := Client.isHolding) hi new
    have hbound : c.clients.countP Client.isHolding ≤ c.broken + c.markers := h.bound
    change (c.clients.set i new).countP Client.isHolding ≤ broken + (c.put i new m).markers
    omega

/-- Whoever creates the marker may have the lock for it. -/
theorem create (h : c.Accounted) (hi : c.clients[i]? = some old) {u : FileTree} {mode : Mode}
    (hc : c.machine.files.create c.machine.cwd c.marker mode = .ok u) :
    (c.put i (.holding ⟨c.marker⟩) { c.machine with files := u }).Accounted := by
  obtain ⟨hbefore, hafter⟩ := FileTree.hasFile_of_create hc
  refine h.put hi (.holding ⟨c.marker⟩) c.broken rfl rfl (fun _ hrest => by cases hrest)
    (fun _ hlock => by cases hlock; rfl) ?_
  simp only [markers, Contest.put, hbefore, hafter, Client.isHolding, Bool.false_eq_true, if_true,
    if_false]
  omega

/-- Whoever has no lock after it, and has not touched the marker, costs nothing. -/
theorem pass (h : c.Accounted) (hi : c.clients[i]? = some old) {new : Client}
    (hcwd : m.cwd = c.machine.cwd) (hothers : m.others = c.machine.others)
    (hmarker : m.files.hasFile c.machine.cwd c.marker =
      c.machine.files.hasFile c.machine.cwd c.marker)
    (hnew : new = .idle ∨ new = .crashed ∨
      ∃ w timeout, new = .taking (Lock.Wait.rest c.marker timeout w)) :
    (c.put i new m).Accounted := by
  have hfree : new.isHolding = false ∧ ∀ rest, new = .waiting rest →
      ∃ w timeout, rest = Lock.Wait.rest c.marker timeout w := by
    rcases hnew with rfl | rfl | ⟨w, timeout, rfl⟩
    · exact ⟨rfl, fun _ hrest => by cases hrest⟩
    · exact ⟨rfl, fun _ hrest => by cases hrest⟩
    · refine ⟨by cases w <;> rfl, fun rest hrest => ⟨w, timeout, ?_⟩⟩
      cases w <;> exact (Client.waiting.inj hrest).symm
  refine h.put hi new c.broken hcwd hothers hfree.2 (fun lock hlock => ?_) ?_
  · rw [hlock] at hfree
    exact absurd hfree.1 (by simp [Client.isHolding])
  · simp only [markers, Contest.put, hcwd, hmarker, hfree.1, Bool.false_eq_true, if_false]
    omega

/-- One request of a process that takes the lock. -/
theorem proceed (h : c.Accounted) {w : Lock.Wait} {timeout : Duration}
    (hi : c.clients[i]? = some (.waiting (w.rest c.marker timeout))) :
    (c.step i .proceed).Accounted := by
  have hwait : ∀ w', (Client.taking (Lock.Wait.rest c.marker timeout w')) = .idle ∨
      (Client.taking (Lock.Wait.rest c.marker timeout w')) = .crashed ∨ ∃ w'' timeout',
        Client.taking (Lock.Wait.rest c.marker timeout w') =
          .taking (Lock.Wait.rest c.marker timeout' w'') :=
    fun w' => Or.inr (Or.inr ⟨w', timeout, rfl⟩)
  have hstep := Lock.Wait.rest_step c.marker timeout w c.machine
  simp only [Contest.step, hi]
  generalize (w.rest c.marker timeout).step c.machine = r at hstep ⊢
  cases hstep with
  | taken hc => exact h.create hi hc
  | refused hc => exact h.pass hi rfl rfl rfl (hwait (.sleep _))
  | slept => exact h.pass hi rfl rfl (h.apart _ _) (hwait (.start _))
  | @removed u hr =>
    obtain ⟨hbefore, hafter⟩ := FileTree.hasFile_of_remove hr
    refine h.put hi (.taking (Lock.Wait.rest c.marker timeout .create)) _ rfl rfl
      (fun _ hrest => ⟨.create, timeout, (Client.waiting.inj hrest).symm⟩)
      (fun _ hlock => by cases hlock) ?_
    -- The marker that the account loses is one more that was broken.
    simp only [hr, Lock.Wait.rest_remove, Lock.Wait.rest_create, Routine.removes, markers,
      Contest.put, hbefore, hafter, Client.isHolding, Client.taking, Except.isOk, Except.toBool,
      decide_true, Bool.and_self, Bool.false_eq_true, if_true, if_false]
    omega
  | @unremoved e hr =>
    simp only [hr, Except.isOk, Except.toBool, Bool.and_false, Bool.false_eq_true, if_false]
    exact h.pass hi rfl rfl rfl (hwait .create)
  | replaced hc => exact h.create hi hc
  | stuck hc => exact h.pass hi rfl rfl rfl (Or.inl rfl)

/-- Giving a lock back costs its holder the lock, whether the marker is there or not. -/
theorem release (h : c.Accounted) (hi : c.clients[i]? = some (.holding ⟨c.marker⟩)) :
    (c.put i .idle ((Lock.mk c.marker).release.run c.machine).2).Accounted := by
  rw [Lock.release_run]
  cases hr : c.machine.files.remove c.machine.cwd c.marker with
  | error e => exact h.pass hi rfl rfl rfl (Or.inl rfl)
  | ok u =>
    obtain ⟨hbefore, hafter⟩ := FileTree.hasFile_of_remove hr
    refine h.put hi .idle c.broken rfl rfl (fun _ hrest => by cases hrest)
      (fun _ hlock => by cases hlock) ?_
    simp only [markers, Contest.put, hbefore, hafter, Client.isHolding, Bool.false_eq_true,
      if_true, if_false]
    omega

/-- Every move keeps the accounts. -/
theorem step (h : c.Accounted) (i : Nat) (move : Move) : (c.step i move).Accounted := by
  unfold Contest.step
  split
  · rename_i policy hi
    rw [Lock.acquire, ← Lock.Wait.rest_start]
    exact h.pass hi rfl rfl rfl (Or.inr (Or.inr ⟨_, _, rfl⟩))
  · rename_i rest hi
    obtain ⟨w, timeout, rfl⟩ := h.waits rest (List.mem_of_getElem? hi)
    have hproceed := h.proceed hi
    simpa only [Contest.step, hi] using hproceed
  · rename_i lock hi
    obtain rfl := h.locks lock (List.mem_of_getElem? hi)
    exact h.release hi
  · rename_i hi
    exact h.pass hi rfl rfl rfl (Or.inr (Or.inl rfl))
  · exact h

theorem run (h : c.Accounted) (moves : List (Nat × Move)) : (c.run moves).Accounted := by
  induction moves generalizing c with
  | nil => exact h
  | cons move moves ih => exact ih (h.step move.1 move.2)

end Accounted

theorem accounted_begin {marker : Path} {m : Machine}
    (h : ∀ n t, (m.others n t).hasFile m.cwd marker = t.hasFile m.cwd marker) (n : Nat) :
    (begin marker m n).Accounted where
  apart := h
  waits rest hrest := by cases List.eq_of_mem_replicate hrest
  locks lock hlock := by cases List.eq_of_mem_replicate hlock
  bound := by
    have hnone : (begin marker m n).holders = 0 := by
      simp only [holders, begin, List.countP_replicate, Client.isHolding, Bool.false_eq_true,
        if_false]
    omega

/-- However many processes take the lock and give it back, in whatever order, by whatever policies
and with whatever crashes: there is no more than one holder for each marker that was broken, and
one for the marker if it stands. So nobody shares the lock as long as no marker is broken. -/
theorem holders_le {marker : Path} {m : Machine}
    (h : ∀ n t, (m.others n t).hasFile m.cwd marker = t.hasFile m.cwd marker) (n : Nat)
    (moves : List (Nat × Move)) :
    let c := (begin marker m n).run moves
    c.holders ≤ c.broken + c.markers ∧ c.holders ≤ 1 + c.broken ∧
      (c.broken = 0 → c.holders ≤ 1) := by
  intro c
  have hbound : c.holders ≤ c.broken + c.markers := ((accounted_begin h n).run moves).bound
  have hone : c.markers ≤ 1 := by
    unfold markers
    split_ifs <;> omega
  omega

def sampleMachine : Machine where
  files := ⟨[([['h']], .directory 0o700)]⟩
  clock := { now := 1000 }
  random := { after := { outcome := .ok [] } }
  uuids _ := ⟨0⟩

/-- The second process breaks the marker of the first, which then gives back what is no longer its
own, so that the third gets the lock beside the second. -/
def sampleMoves : List (Nat × Move) :=
  [(0, .start ⟨1, Duration.ofMillis 5⟩), (0, .proceed),
    (1, .start ⟨0, Duration.ofMillis 5⟩), (1, .proceed), (1, .proceed),
    (0, .release),
    (2, .start ⟨1, Duration.ofMillis 5⟩), (2, .proceed)]

theorem holders_le_displaced :
    let c := (begin ⟨"/h/c.lock".toList⟩ sampleMachine 3).run sampleMoves
    (∀ n t, (sampleMachine.others n t).hasFile sampleMachine.cwd ⟨"/h/c.lock".toList⟩ =
      t.hasFile sampleMachine.cwd ⟨"/h/c.lock".toList⟩) ∧
    (c.holders, c.broken, c.markers) = (2, 1, 1) ∧ c.holders ≤ c.broken + c.markers :=
  ⟨fun _ _ => rfl, by decide +kernel,
    (holders_le (m := sampleMachine) (fun _ _ => rfl) 3 sampleMoves).1⟩

end Contest

end Keyrings
