import Keyrings.Proofs.FreshKey

/-! Which draw gives a new key its identifier. Bytes come from any source whatsoever, with a state
of its own, that may fail at any time. The first draw that can be used ends the search, if no draw
before it failed and not too many before it were passed over; the draw after it is the secret. -/

namespace Keyrings

/-- Whatever answers requests, by a state that each answer may change. -/
abbrev Host (σ : Type) := σ → (r : Request) → r.Answer × σ

/-- How a routine ends on a host: its value, its requests in their order, and the state after
them. -/
structure Ending (α σ : Type) where
  value : α
  requests : List Request
  state : σ

/-- The ending of a routine after some requests before it. -/
def Ending.after {α σ : Type} (requests : List Request) (e : Ending α σ) : Ending α σ :=
  { e with requests := requests ++ e.requests }

namespace Routine

variable {α β σ : Type}

def against (host : Host σ) : Routine α → σ → Ending α σ
  | done a, s => ⟨a, [], s⟩
  | ask r next, s => ((next (host s r).1).against host (host s r).2).after [r]

@[simp] theorem against_done (host : Host σ) (a : α) (s : σ) :
    (done a).against host s = ⟨a, [], s⟩ := rfl

@[simp] theorem against_ask (host : Host σ) (r : Request) (next : r.Answer → Routine α) (s : σ) :
    (ask r next).against host s =
      ((next (host s r).1).against host (host s r).2).after [r] := rfl

theorem against_bind (host : Host σ) (t : Routine α) (f : α → Routine β) (s : σ) :
    (t.bind f).against host s = ((f (t.against host s).value).against host
      (t.against host s).state).after (t.against host s).requests := by
  induction t generalizing s with
  | done a => rfl
  | ask r next ih =>
    rw [ask_bind, against_ask, ih]
    rfl

/-- A machine is a host. -/
theorem against_machine (t : Routine α) (m : Machine) :
    ((t.against Machine.answer m).value, (t.against Machine.answer m).state) = t.run m := by
  induction t generalizing m with
  | done a => rfl
  | ask r next ih => exact ih (m.answer r).1 (m.answer r).2

end Routine

namespace Host

variable {σ : Type} (host : Host σ)

def drawn : Nat → σ → σ
  | 0, s => s
  | n + 1, s => drawn n (host s (.draw idLength)).2

theorem drawn_succ (n : Nat) (s : σ) :
    host.drawn (n + 1) s = (host (host.drawn n s) (.draw idLength)).2 := by
  induction n generalizing s with
  | zero => rfl
  | succ n ih => exact ih (host s (.draw idLength)).2

def idDraw (s : σ) (i : Nat) : Except Fault (Block idLength) :=
  (host (host.drawn i s) (.draw idLength)).1

def secretDraw (s : σ) (i : Nat) : Except Fault (Block secretLength) :=
  (host (host.drawn i s) (.draw secretLength)).1

end Host

/-- A draw gives an identifier that can be used: it has an absolute value that no existing key has
as its identifier. -/
structure Usable (existing : List Key) (draw : List UInt8) (id : Int32) : Prop where
  ne_min : Int32.ofNat (littleEndian draw) ≠ Int32.minValue
  value : id.toInt = (Int32.ofNat (littleEndian draw)).toInt.natAbs
  id_new : ∀ k ∈ existing, k.id ≠ id

/-- A draw succeeds and gives no identifier that can be used. -/
def PassedOver (existing : List Key) (outcome : Except Fault (Block idLength)) : Prop :=
  ∃ block, outcome = .ok block ∧ ∀ id, ¬ Usable existing block.bytes id

theorem usableId?_eq_some_iff {existing : List Key} {draw : List UInt8} {id : Int32} :
    usableId? existing draw = some id ↔ Usable existing draw id := by
  have hnew : (!hasId existing id) = true ↔ ∀ k ∈ existing, k.id ≠ id := by
    rw [Bool.not_eq_true', hasId_eq_false_iff]
    simp
  rw [usableId?, Option.filter_eq_some_iff, absolute?_eq_some_iff, hnew, and_assoc]
  exact ⟨fun ⟨hmin, hvalue, hnew⟩ => ⟨hmin, hvalue, hnew⟩, fun h => ⟨h.ne_min, h.value, h.id_new⟩⟩

theorem usableId?_eq_none_iff {existing : List Key} {draw : List UInt8} :
    usableId? existing draw = none ↔ ∀ id, ¬ Usable existing draw id := by
  rw [Option.eq_none_iff_forall_ne_some]
  simp only [ne_eq, usableId?_eq_some_iff]

def idDraws (n : Nat) : List Request := List.replicate n (.draw idLength)

theorem idDraws_succ (n : Nat) : idDraws (n + 1) = idDraws n ++ [.draw idLength] :=
  List.replicate_succ'

variable {σ : Type} {host : Host σ} {existing : List Key} {s : σ}

theorem drawId_succ (existing : List Key) (n : Nat) : drawId existing (n + 1) =
    .ask (.draw idLength) fun
      | .error fault => .done (.error fault)
      | .ok block =>
        match usableId? existing block.bytes with
        | some id => .done (.ok id)
        | none => drawId existing n := rfl

/-- Draws that are passed over lead to the draw after them. The induction is on their number. -/
theorem drawId_passed {j : Nat} (h : ∀ i < j, PassedOver existing (host.idDraw s i)) (n : Nat) :
    (drawId existing (j + n)).against host s =
      ((drawId existing n).against host (host.drawn j s)).after (idDraws j) := by
  induction j generalizing s with
  | zero => rw [Nat.zero_add]; rfl
  | succ j ih =>
    obtain ⟨block, hblock, hnone⟩ := h 0 (Nat.succ_pos j)
    have hlater : ∀ i < j, PassedOver existing (host.idDraw (host s (.draw idLength)).2 i) :=
      fun i hi => h (i + 1) (Nat.succ_lt_succ hi)
    have hdraw : (host s (.draw idLength)).1 = .ok block := hblock
    rw [Nat.add_right_comm, drawId_succ, Routine.against_ask, hdraw]
    simp only [usableId?_eq_none_iff.mpr hnone]
    rw [ih hlater]
    rfl

section Deciding

variable {j n : Nat} (hpassed : ∀ i < j, PassedOver existing (host.idDraw s i))
include hpassed

/-- The search comes to the draw after those that are passed over, if it may draw so often. -/
theorem drawId_reaches (hj : j < n) : ∃ left, (drawId existing n).against host s =
    ((drawId existing (left + 1)).against host (host.drawn j s)).after (idDraws j) := by
  refine ⟨n - (j + 1), ?_⟩
  rw [← drawId_passed hpassed]
  congr 2
  omega

theorem drawId_usable (hj : j < n) {block : Block idLength} {id : Int32}
    (hblock : host.idDraw s j = .ok block) (hid : Usable existing block.bytes id) :
    (drawId existing n).against host s = ⟨.ok id, idDraws (j + 1), host.drawn (j + 1) s⟩ := by
  obtain ⟨left, hleft⟩ := drawId_reaches hpassed hj
  have hdraw : (host (host.drawn j s) (.draw idLength)).1 = .ok block := hblock
  rw [hleft, drawId_succ, Routine.against_ask, hdraw]
  simp only [usableId?_eq_some_iff.mpr hid]
  rw [idDraws_succ, Host.drawn_succ]
  rfl

theorem drawId_failed (hj : j < n) {fault : Fault} (hfault : host.idDraw s j = .error fault) :
    (drawId existing n).against host s = ⟨.error fault, idDraws (j + 1), host.drawn (j + 1) s⟩ := by
  obtain ⟨left, hleft⟩ := drawId_reaches hpassed hj
  have hdraw : (host (host.drawn j s) (.draw idLength)).1 = .error fault := hfault
  rw [hleft, drawId_succ, Routine.against_ask, hdraw, idDraws_succ, Host.drawn_succ]
  rfl

theorem drawId_exhausted : (drawId existing j).against host s =
    ⟨.error (.failed (.noFreeId maxIdAttempts)), idDraws j, host.drawn j s⟩ := by
  have hrun := drawId_passed hpassed 0
  rw [Nat.add_zero] at hrun
  rw [hrun]
  exact congrArg (Ending.mk _ · _) (List.append_nil _)

end Deciding

/-- A new key takes its identifier from the first draw that can be used, if it is among the first
64 and no draw before it failed; then one more draw is made, for the secret. If a draw fails first,
its fault is the outcome, and if all 64 are passed over there is no key; nothing more is drawn
then. -/
theorem freshKey_exact (host : Host σ) (existing : List Key) (now : Instant) (s : σ) :
    (∀ j < maxIdAttempts, (∀ i < j, PassedOver existing (host.idDraw s i)) →
      ∀ block id, host.idDraw s j = .ok block → Usable existing block.bytes id →
        (freshKey existing now).against host s =
          ⟨(host.secretDraw s (j + 1)).map fun secret => ⟨id, now, secret.bytes⟩,
            idDraws (j + 1) ++ [.draw secretLength],
            (host (host.drawn (j + 1) s) (.draw secretLength)).2⟩ ∧
        0 ≤ id.toInt ∧ id.toInt ≤ 2147483647 ∧ ∀ k ∈ existing, k.id ≠ id) ∧
    (∀ j < maxIdAttempts, (∀ i < j, PassedOver existing (host.idDraw s i)) →
      ∀ fault, host.idDraw s j = .error fault →
        (freshKey existing now).against host s =
          ⟨.error fault, idDraws (j + 1), host.drawn (j + 1) s⟩) ∧
    ((∀ i < maxIdAttempts, PassedOver existing (host.idDraw s i)) →
      (freshKey existing now).against host s =
        ⟨.error (.failed (.noFreeId maxIdAttempts)), idDraws maxIdAttempts,
          host.drawn maxIdAttempts s⟩) := by
  refine ⟨fun j hj hpassed block id hblock hid => ⟨?_, ?_⟩,
    fun j hj hpassed fault hfault => ?_, fun hpassed => ?_⟩
  · rw [freshKey, Routine.bind_eq, Routine.against_bind, drawId_usable hpassed hj hblock hid]
    simp only [Routine.request, Routine.bind_eq, Routine.ask_bind, Routine.done_bind,
      Routine.against_ask, Host.secretDraw]
    cases (host (host.drawn (j + 1) s) (.draw secretLength)).1 <;> rfl
  · have hvalue := hid.value
    have hhi := id.toInt_lt
    exact ⟨by omega, by omega, hid.id_new⟩
  · rw [freshKey, Routine.bind_eq, Routine.against_bind, drawId_failed hpassed hj hfault]
    exact congrArg (Ending.mk _ · _) (List.append_nil _)
  · rw [freshKey, Routine.bind_eq, Routine.against_bind, drawId_exhausted hpassed]
    exact congrArg (Ending.mk _ · _) (List.append_nil _)

def takenKey : Key := ⟨7, 900, [1]⟩

/-- A machine that draws 7, the lowest number, -7 and -2, and then bytes for the secret. -/
def drawingMachine : Machine where
  files := .empty
  clock := { now := 1000 }
  random := {
    script := [{ outcome := .ok [7, 0, 0, 0] }, { outcome := .ok [0, 0, 0, 128] },
      { outcome := .ok [249, 255, 255, 255] }, { outcome := .ok [254, 255, 255, 255] }]
    after := { outcome := .ok [1, 2] } }
  uuids n := ⟨BitVec.ofNat 128 n⟩

theorem freshKey_exact_sample :
    (∀ i < 3, PassedOver [takenKey] (Host.idDraw Machine.answer drawingMachine i)) ∧
    ∃ block, Host.idDraw Machine.answer drawingMachine 3 = .ok block ∧
      Usable [takenKey] block.bytes 2 ∧
      let e := (freshKey [takenKey] 1000).against Machine.answer drawingMachine
      e.value = .ok ⟨2, 1000, cycle [1, 2] 24⟩ ∧
      e.requests = [.draw 4, .draw 4, .draw 4, .draw 4, .draw 24] := by
  have hpassed : ∀ i < 3,
      PassedOver [takenKey] (Host.idDraw Machine.answer drawingMachine i) := by
    intro i hi
    have hblock : ∃ block, Host.idDraw Machine.answer drawingMachine i = .ok block ∧
        usableId? [takenKey] block.bytes = none := by
      match i, hi with
      | 0, _ => exact ⟨⟨[7, 0, 0, 0], rfl⟩, rfl, by decide⟩
      | 1, _ => exact ⟨⟨[0, 0, 0, 128], rfl⟩, rfl, by decide⟩
      | 2, _ => exact ⟨⟨[249, 255, 255, 255], rfl⟩, rfl, by decide⟩
    obtain ⟨block, hblock, hnone⟩ := hblock
    exact ⟨block, hblock, usableId?_eq_none_iff.mp hnone⟩
  have hid : Usable [takenKey] [254, 255, 255, 255] 2 := usableId?_eq_some_iff.mp (by decide)
  obtain ⟨hrun, -⟩ := (freshKey_exact Machine.answer [takenKey] 1000 drawingMachine).1 3 (by decide)
    hpassed ⟨[254, 255, 255, 255], rfl⟩ 2 rfl hid
  refine ⟨hpassed, ⟨[254, 255, 255, 255], rfl⟩, rfl, hid, ?_⟩
  rw [hrun]
  exact ⟨rfl, rfl⟩

end Keyrings
