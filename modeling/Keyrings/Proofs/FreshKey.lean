import Keyrings.FreshKey
import Keyrings.Machine
import Keyrings.Proofs.KeyFile

/-! New keys. A key that is made has an identifier from zero up that no key beside it has, and a
secret of full length. Making one draws random bytes and does nothing else to a machine, unless
others change files between the draws. -/

namespace Keyrings

/-- What a new key is like among the keys that it is made beside. -/
structure IsFresh (existing : List Key) (now : Instant) (k : Key) : Prop where
  created_eq : k.created = now
  id_nonneg : 0 ≤ k.id.toInt
  id_new : hasId existing k.id = false
  secret_length : k.secret.length = secretLength

theorem Storable.append_fresh {keys : List Key} {now : Instant} {k : Key} (h : Storable keys)
    (hk : IsFresh keys now k) : Storable (keys ++ [k]) := by
  refine h.append hk.id_nonneg ?_ hk.id_new
  intro hs
  have := hk.secret_length
  simp [hs, secretLength] at this

/-- No file changes while bytes are drawn. -/
structure Randomness.Quiet (r : Randomness) : Prop where
  script : ∀ d ∈ r.script, ∀ t, d.before t = t
  after : ∀ t, r.after.before t = t

theorem Randomness.Quiet.next {r : Randomness} (h : r.Quiet) :
    (∀ t, r.next.1.before t = t) ∧ r.next.2.Quiet := by
  unfold Randomness.next
  cases hs : r.script with
  | nil => exact ⟨h.after, h⟩
  | cons d rest =>
    refine ⟨h.script d (by simp [hs]), fun d' hd' => h.script d' ?_, h.after⟩
    rw [hs]
    exact List.mem_cons_of_mem d hd'

/-- What neither a draw nor a file operation changes. -/
structure Machine.Kept (m m' : Machine) : Prop where
  cwd_eq : m'.cwd = m.cwd
  clock_eq : m'.clock = m.clock
  others_eq : m'.others = m.others
  quiet : m.random.Quiet → m'.random.Quiet

/-- Everything that drawing random bytes leaves as it is. -/
structure Machine.Drawn (m m' : Machine) : Prop extends m.Kept m' where
  uuids_eq : m'.uuids = m.uuids
  uuidCount_eq : m'.uuidCount = m.uuidCount
  files_eq : m.random.Quiet → m'.files = m.files

namespace Machine

variable {m m' m'' : Machine}

theorem Kept.refl (m : Machine) : m.Kept m := ⟨rfl, rfl, rfl, id⟩

theorem Kept.trans (h : m.Kept m') (h' : m'.Kept m'') : m.Kept m'' where
  cwd_eq := h'.cwd_eq.trans h.cwd_eq
  clock_eq := h'.clock_eq.trans h.clock_eq
  others_eq := h'.others_eq.trans h.others_eq
  quiet hq := h'.quiet (h.quiet hq)

theorem Drawn.refl (m : Machine) : m.Drawn m := ⟨Kept.refl m, rfl, rfl, fun _ => rfl⟩

theorem Drawn.trans (h : m.Drawn m') (h' : m'.Drawn m'') : m.Drawn m'' where
  toKept := h.toKept.trans h'.toKept
  uuids_eq := h'.uuids_eq.trans h.uuids_eq
  uuidCount_eq := h'.uuidCount_eq.trans h.uuidCount_eq
  files_eq hq := (h'.files_eq (h.quiet hq)).trans (h.files_eq hq)

theorem drawn_draw (m : Machine) (count : Nat) : m.Drawn (m.answer (.draw count)).2 where
  cwd_eq := rfl
  clock_eq := rfl
  others_eq := rfl
  quiet hq := hq.next.2
  uuids_eq := rfl
  uuidCount_eq := rfl
  files_eq hq := hq.next.1 m.files

end Machine

/-- Every number but the lowest has its absolute value. -/
theorem absolute?_eq_some_iff {x y : Int32} :
    absolute? x = some y ↔ x ≠ Int32.minValue ∧ y.toInt = x.toInt.natAbs := by
  unfold absolute?
  by_cases hmin : x = Int32.minValue
  · simp [hmin]
  · have hlo : -2147483648 < x.toInt := by
      have hle := x.le_toInt
      rcases Int.lt_or_eq_of_le hle with hlt | heq
      · exact hlt
      · exact absurd (Int32.toInt_inj.mp (heq.symm.trans (by rfl))) hmin
    have hhi := x.toInt_lt
    have habs : (Int32.ofInt x.toInt.natAbs).toInt = x.toInt.natAbs :=
      Int32.toInt_ofInt_of_le (by omega) (by omega)
    rw [if_neg hmin, Option.some.injEq, ← Int32.toInt_inj, habs, eq_comm]
    exact ⟨fun h => ⟨hmin, h⟩, fun h => h.2⟩

theorem usableId?_eq_some {existing : List Key} {draw : List UInt8} {id : Int32}
    (h : usableId? existing draw = some id) : 0 ≤ id.toInt ∧ hasId existing id = false := by
  obtain ⟨habs, hnew⟩ := Option.filter_eq_some_iff.mp h
  have hvalue := (absolute?_eq_some_iff.mp habs).2
  exact ⟨by omega, by simpa using hnew⟩

theorem drawId_run (existing : List Key) (n : Nat) (m : Machine) :
    m.Drawn ((drawId existing n).run m).2 ∧ ∀ id, ((drawId existing n).run m).1 = .ok id →
      0 ≤ id.toInt ∧ hasId existing id = false := by
  induction n generalizing m with
  | zero => exact ⟨Machine.Drawn.refl m, fun id h => by cases h⟩
  | succ n ih =>
    have hdrawn := m.drawn_draw idLength
    simp only [drawId, Routine.request, Routine.bind_eq, Routine.ask_bind, Routine.done_bind,
      Routine.run_ask]
    cases (m.answer (.draw idLength)).1 with
    | error fault => exact ⟨hdrawn, fun id h => by cases h⟩
    | ok block =>
      simp only
      cases hid : usableId? existing block.bytes with
      | none =>
        obtain ⟨hrest, hok⟩ := ih (m.answer (.draw idLength)).2
        exact ⟨hdrawn.trans hrest, hok⟩
      | some id =>
        refine ⟨hdrawn, fun id' h => ?_⟩
        cases h
        exact usableId?_eq_some hid

/-- Making a key only draws bytes, and the key is fresh. -/
theorem freshKey_run (existing : List Key) (now : Instant) (m : Machine) :
    m.Drawn ((freshKey existing now).run m).2 ∧ ∀ k, ((freshKey existing now).run m).1 = .ok k →
      IsFresh existing now k := by
  obtain ⟨hdrawn, hid⟩ := drawId_run existing maxIdAttempts m
  simp only [freshKey, Routine.bind_eq, Routine.run_bind]
  cases hr : ((drawId existing maxIdAttempts).run m).1 with
  | error fault => exact ⟨hdrawn, fun k h => by cases h⟩
  | ok id =>
    obtain ⟨hnonneg, hnew⟩ := hid id hr
    have hsecret := ((drawId existing maxIdAttempts).run m).2.drawn_draw secretLength
    simp only [Routine.request, Routine.ask_bind, Routine.done_bind, Routine.run_ask]
    cases (((drawId existing maxIdAttempts).run m).2.answer (.draw secretLength)).1 with
    | error fault => exact ⟨hdrawn.trans hsecret, fun k h => by cases h⟩
    | ok secret =>
      refine ⟨hdrawn.trans hsecret, fun k h => ?_⟩
      cases h
      exact ⟨rfl, hnonneg, hnew, secret.length_bytes⟩

end Keyrings
