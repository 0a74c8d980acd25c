import Keyrings.Proofs.Bystanders
import Keyrings.Proofs.Runs

/-! What is in the file after a session, for every file that the session starts with. Only a renewal
that succeeds changes the contents: it drops what has expired by its time and puts its key after the
rest. If the clock does not go back from one of them to the next, the drops add up to a single one:
the file holds what was in it for the first renewal, and all keys made since, as far as they are
kept at the time of the last renewal. -/

namespace Keyrings

/-! ### A file that renewals write -/

theorem KeyFile.serialize_ne_nil {keys : List Key} (h : keys ≠ []) : serialize keys ≠ [] := by
  obtain ⟨k, rest, rfl⟩ := List.exists_cons_of_ne_nil h
  simp [serialize, Text.Plain.bytes, render, Line.render_eq]

/-- How the contents of a file go from renewal to renewal, each of which has a time and leaves a
keyring, and makes one key. -/
inductive Grows : List UInt8 → List (Instant × Keyring) → List Key → List UInt8 → Prop
  | refl (bytes : List UInt8) : Grows bytes [] [] bytes
  | cons {bytes last : List UInt8} {t : Instant} {ring : Keyring} {k : Key}
      {renewals : List (Instant × Keyring)} {keys : List Key}
      (hfresh : IsFresh (KeyFile.parse bytes t) t k)
      (hring : ring.keys = KeyFile.parse bytes t ++ [k])
      (h : Grows (KeyFile.serialize ring.keys) renewals keys last) :
      Grows bytes ((t, ring) :: renewals) (k :: keys) last

namespace Grows

variable {bytes mid last : List UInt8} {renewals more : List (Instant × Keyring)}
  {keys others : List Key}

theorem append (h : Grows bytes renewals keys mid) (h' : Grows mid more others last) :
    Grows bytes (renewals ++ more) (keys ++ others) last := by
  induction h with
  | refl bytes => exact h'
  | cons hfresh hring h ih => exact .cons hfresh hring (ih h')

/-- Every renewal made its own key, at its time. -/
theorem keys_made (h : Grows bytes renewals keys last) :
    List.Forall₂ (fun x k => x.2.keys.getLast? = some k ∧ k.created = x.1) renewals keys := by
  induction h with
  | refl bytes => exact .nil
  | cons hfresh hring h ih =>
    exact .cons ⟨by rw [hring, List.getLast?_concat], hfresh.created_eq⟩ ih

/-- There is at least the last key in the file. -/
theorem ne_nil (h : Grows bytes renewals keys last) (hne : renewals ≠ []) : last ≠ [] := by
  induction h with
  | refl bytes => contradiction
  | @cons bytes last t ring k renewals keys hfresh hring h ih =>
    cases renewals with
    | nil =>
      cases h
      exact KeyFile.serialize_ne_nil (by simp [hring])
    | cons x renewals => exact ih (by simp)

/-- A renewal that reads what is kept of some keys leaves what is kept of those and its own. -/
theorem kept_more {older : List Key} {t : Instant} {ring : Keyring} {k : Key}
    (hparse : KeyFile.parse bytes t = kept older t) (htimely : Timely older t) (h0 : 0 ≤ t.toInt)
    (hfresh : IsFresh (KeyFile.parse bytes t) t k)
    (hring : ring.keys = KeyFile.parse bytes t ++ [k]) :
    ring.keys = kept (older ++ [k]) t ∧ Storable (kept (older ++ [k]) t) ∧
      Timely (older ++ [k]) t := by
  have hstorable := (KeyFile.parse_storable bytes t).1.append_fresh hfresh
  have hkeys : ring.keys = kept (older ++ [k]) t := by
    rw [hring, kept_append_fresh hfresh.created_eq h0, hparse]
  rw [← hring, hkeys] at hstorable
  exact ⟨hkeys, hstorable, htimely.append hfresh.created_eq h0⟩

/-- Later renewals add up. The induction is on the renewals; a key that one of them drops stays
dropped, since time does not go back. -/
theorem of_kept {older : List Key} {since : Instant}
    (h : Grows (KeyFile.serialize (kept older since)) renewals keys last)
    (hstorable : Storable (kept older since)) (htimely : Timely older since)
    (h0 : 0 ≤ since.toInt)
    (hsorted : (since :: renewals.map Prod.fst).Pairwise (·.toInt ≤ ·.toInt)) :
    last = KeyFile.serialize (kept (older ++ keys) ((renewals.map Prod.fst).getLastD since)) ∧
      Storable (kept (older ++ keys) ((renewals.map Prod.fst).getLastD since)) := by
  induction renewals generalizing older since keys with
  | nil =>
    cases h
    rw [List.append_nil]
    exact ⟨rfl, hstorable⟩
  | cons x renewals ih =>
    cases h with
    | @cons _ _ t ring k _ keys hfresh hring h =>
      obtain ⟨hsince, hlater⟩ := List.pairwise_cons.mp hsorted
      have hle : since.toInt ≤ t.toInt := hsince t List.mem_cons_self
      have hnow : 0 ≤ t.toInt := Int.le_trans h0 hle
      -- Reading back what was kept at an earlier time and dropping from it is dropping at once.
      have hparse : KeyFile.parse (KeyFile.serialize (kept older since)) t = kept older t := by
        rw [KeyFile.parse_serialize hstorable, kept_kept htimely hle]
      obtain ⟨hkeys, hnext, htimely'⟩ :=
        kept_more hparse (htimely.of_le hle) hnow hfresh hring
      rw [hkeys] at h
      have hrest := ih h hnext htimely' hnow hlater
      rw [List.append_assoc, List.singleton_append] at hrest
      rw [List.map_cons, List.getLastD_cons]
      exact hrest

/-- The first renewal reads whatever is in the file; from then on the keys are those that were read
and those that were made. -/
theorem closed {first : Instant} {later : List Instant} (h : Grows bytes renewals keys last)
    (htimes : renewals.map Prod.fst = first :: later) (h0 : 0 ≤ first.toInt)
    (hsorted : (first :: later).Pairwise (·.toInt ≤ ·.toInt)) :
    last = KeyFile.serialize (kept (KeyFile.parse bytes first ++ keys) (later.getLastD first)) ∧
      Storable (kept (KeyFile.parse bytes first ++ keys) (later.getLastD first)) := by
  cases h with
  | refl bytes => cases htimes
  | @cons _ _ t ring k renewals keys hfresh hring h =>
    cases htimes
    -- Nothing is known of the first bytes, but what is read from them is kept at that time.
    have hlife := (KeyFile.parse_storable bytes t).2
    have hparse : KeyFile.parse bytes t = kept (KeyFile.parse bytes t) t :=
      (List.filter_eq_self.mpr hlife).symm
    have htimely : Timely (KeyFile.parse bytes t) t := fun j hj => by
      have := (Key.isWithinLifetime_iff j t).mp (hlife j hj)
      omega
    obtain ⟨hkeys, hnext, htimely'⟩ := kept_more hparse htimely h0 hfresh hring
    rw [hkeys] at h
    have hrest := h.of_kept hnext htimely' h0 hsorted
    rw [List.append_assoc, List.singleton_append] at hrest
    exact hrest

end Grows

/-! ### Renewals of a session -/

namespace Keyring

/-- The time of a renewal and the keyring that it leaves, if it succeeds. -/
def renewed? (ring : Keyring) (m : Machine) : Option (Instant × Keyring) :=
  match (ring.renew.run m).1 with
  | (.ok _, renewed) => some (m.clock.now, renewed)
  | (.error _, _) => none

variable {place : Place} {cwd : Location} {bytes : List UInt8} {m : Machine} {ring : Keyring}

theorem grows_renew (hof : ring.IsOf place.directory place.context)
    (h : m.Shows place.file cwd bytes) : ∃ keys last,
      Grows bytes (ring.renewed? m).toList keys last ∧
      (ring.renew.run m).2.Shows place.file cwd last ∧
      (ring.renew.run m).1.2.IsOf place.directory place.context := by
  have hfile : ring.file = place.file := hof.file_eq
  rw [← hfile] at h ⊢
  have hshows := hof.shows_renew h
  unfold renewed?
  generalize ring.renew.run m = r at hshows ⊢
  obtain ⟨⟨outcome, ring'⟩, m'⟩ := r
  cases outcome with
  | error fault =>
    obtain ⟨rfl, hshows⟩ := hshows
    exact ⟨[], bytes, .refl bytes, hshows, hof⟩
  | ok _ =>
    obtain ⟨key, hfresh, rfl, hshows⟩ := hshows
    exact ⟨[key], _, .cons hfresh rfl (.refl _), hshows, hof.with_keys _⟩

/-- The search for the best key renews the keyring at most once, after its first look at the
clock. -/
theorem grows_bestKey (hof : ring.IsOf place.directory place.context)
    (h : m.Shows place.file cwd bytes) : ∃ keys last,
      Grows bytes (match findRecent ring.keys m.clock.now with
        | some _ => none
        | none => ring.renewed? (m.answer .now).2).toList keys last ∧
      (ring.bestKey.run m).2.Shows place.file cwd last ∧
      (ring.bestKey.run m).1.2.IsOf place.directory place.context := by
  have hrenew := grows_renew hof h.look
  have hsearch := bestKey_run ring m
  generalize ring.bestKey.run m = r at hsearch ⊢
  cases hsearch with
  | loaded hk =>
    rw [hk]
    exact ⟨[], bytes, .refl bytes, h.look, hof⟩
  | failed hnone hren =>
    rw [hnone]
    rw [hren] at hrenew
    exact hrenew
  | found hnone hren hk =>
    rw [hnone]
    rw [hren] at hrenew
    obtain ⟨keys, last, hgrows, hshows, hof'⟩ := hrenew
    exact ⟨keys, last, hgrows, hshows.look, hof'⟩
  | missed hnone hren hk =>
    rw [hnone]
    rw [hren] at hrenew
    obtain ⟨keys, last, hgrows, hshows, hof'⟩ := hrenew
    exact ⟨keys, last, hgrows, hshows.look, hof'⟩

theorem grows_reload (hof : ring.IsOf place.directory place.context)
    (h : m.Shows place.file cwd bytes) (addNew : Bool) : ∃ keys last,
      Grows bytes (if addNew then ring.renewed? m else none).toList keys last ∧
      ((ring.reload addNew).run m).2.Shows place.file cwd last ∧
      ((ring.reload addNew).run m).1.2.IsOf place.directory place.context := by
  cases addNew with
  | true => exact grows_renew hof h
  | false =>
    simp only [reload, Bool.false_eq_true, if_false, Routine.bind_eq, Routine.run_bind, refresh_run]
    exact ⟨[], bytes, .refl bytes, h.look, hof.with_keys _⟩

/-- Opening reads the file and at most makes its directory. -/
theorem shows_openFor {resolver : HomeResolver} {options : KeyringOptions}
    {user : Option (List Char)} (h : m.Shows place.file cwd bytes)
    (hhome : resolver user = .ok place.home) (hsubdir : options.subdir = place.subdir) :
    ((openFor resolver options user place.context).run m).2.Shows place.file cwd bytes ∧
      ∀ opened, ((openFor resolver options user place.context).run m).1 = .ok opened →
        opened.IsOf place.directory place.context := by
  have hdir : place.home.join options.subdir = place.directory := by
    rw [hsubdir]
    rfl
  cases hv : Context.isValid place.context with
  | false =>
    have hrun : (openFor resolver options user place.context).run m =
        (.error (.failed .invalidContext), m) := by
      simp [openFor, hhome, hv]
    rw [hrun]
    exact ⟨h, fun opened hopened => by cases hopened⟩
  | true =>
    have hof := isOf_inDirectory hv place.directory options.policy
    simp only [openFor, hhome, hv, if_true, Routine.bind_eq, Routine.run_bind, openIn_run, hdir]
    constructor
    · change (Machine.change { m with clock := m.clock.look.2 }
        (m.files.makeDirectory m.cwd place.directory privateDirectoryMode)).2.Shows _ _ _
      cases hm : m.files.makeDirectory m.cwd place.directory privateDirectoryMode with
      | error e => exact h.look
      | ok u =>
        rw [h.cwd_eq] at hm
        exact h.of_keeps (FileTree.keeps_makeDirectory hof.isName hm) rfl rfl rfl
    · intro opened hopened
      cases hopened
      exact hof.with_keys _

end Keyring

/-- What others do to a machine, and then an operation on a session with that machine. -/
abbrev Turn := (Machine → Machine) × Operation

namespace Session

/-- The renewal in an operation, if there is one that succeeds. The search for the best key renews
its keyring when no key that is loaded is recent. -/
def renewed? (s : Session) : Operation → Option (Instant × Keyring)
  | .reload handle addNew => (s.ring? handle).bind fun ring =>
    if addNew then ring.renewed? s.machine else none
  | .bestKey handle => (s.ring? handle).bind fun ring =>
    match findRecent ring.keys s.machine.clock.now with
    | some _ => none
    | none => ring.renewed? (s.machine.answer .now).2
  | .openFor .. | .clone .. | .drop _ => none

def turn (s : Session) (x : Turn) : Session := ((s.onMachine x.1).step x.2).2

def turns (s : Session) : List Turn → Session
  | [] => s
  | x :: rest => (s.turn x).turns rest

def renewals (s : Session) : List Turn → List (Instant × Keyring)
  | [] => []
  | x :: rest => ((s.onMachine x.1).renewed? x.2).toList ++ (s.turn x).renewals rest

/-- The file of a place has some contents and is left alone by others, and all keyrings are of that
place. -/
structure Shows (place : Place) (cwd : Location) (bytes : List UInt8) (s : Session) : Prop where
  machine : s.machine.Shows place.file cwd bytes
  rings : ∀ x ∈ s.rings, x.2.IsOf place.directory place.context

/-- Whether others leave the file of a place alone between operations, and these are at the
place. -/
def Calm (place : Place) (cwd : Location) : Session → List Turn → Prop
  | _, [] => True
  | s, x :: rest =>
    (∀ bytes, s.machine.Shows place.file cwd bytes → (x.1 s.machine).Shows place.file cwd bytes) ∧
      x.2.At place ∧ Calm place cwd (s.turn x) rest

variable {place : Place} {cwd : Location} {bytes : List UInt8} {s s' : Session} {handle : String}

theorem ring?_of_update_eq_none {α : Type} {routine : Keyring → Routine (α × Keyring)}
    (h : s.update handle routine = none) : s.ring? handle = none := by
  rw [ring?]
  cases hn : s.number? handle with
  | none => rfl
  | some n =>
    cases hr : s.rings.lookup n with
    | none => exact hr
    | some ring => simp [update, hn, hr] at h

/-- A reload with a new key counts as a renewal exactly if it is done. -/
theorem renewed?_isSome_iff : (s.renewed? (.reload handle true)).isSome = true ↔
    (s.step (.reload handle true)).1 = .done := by
  simp only [step]
  cases hs : s.update handle (·.reload true) with
  | none =>
    rw [renewed?, ring?_of_update_eq_none hs]
    simp
  | some result =>
    obtain ⟨outcome, s'⟩ := result
    obtain ⟨n, ring, hring, rfl, -, -⟩ := update_eq_some hs
    have hrun : (ring.reload true).run s.machine = ring.renew.run s.machine := rfl
    simp only [renewed?, hring, Option.bind_some, if_true, Keyring.renewed?, hrun]
    generalize ring.renew.run s.machine = r
    obtain ⟨⟨outcome, ring'⟩, m'⟩ := r
    cases outcome <;> simp

namespace Shows

theorem close (h : s.Shows place cwd bytes) (handles : List (String × Nat)) :
    (Session.close { s with handles := handles }).Shows place cwd bytes where
  machine := h.machine
  rings x hx := by
    have hs : x ∈ ({ s with handles := handles } : Session).rings := mem_close hx
    exact h.rings x hs

/-- What a routine does to one keyring and the file, it does in the session. -/
theorem update {α : Type} {a : α} {routine : Keyring → Routine (α × Keyring)}
    {renewals : Keyring → List (Instant × Keyring)} (h : s.Shows place cwd bytes)
    (hroutine : ∀ ring : Keyring, ring.IsOf place.directory place.context → ∃ keys last,
      Grows bytes (renewals ring) keys last ∧
      ((routine ring).run s.machine).2.Shows place.file cwd last ∧
      ((routine ring).run s.machine).1.2.IsOf place.directory place.context)
    (hs : s.update handle routine = some (a, s')) :
    ∃ ring keys last, s.ring? handle = some ring ∧ Grows bytes (renewals ring) keys last ∧
      s'.Shows place cwd last := by
  obtain ⟨n, ring, hring, -, rfl, -⟩ := update_eq_some hs
  obtain ⟨k, hk⟩ := mem_of_ring? hring
  obtain ⟨keys, last, hgrows, hmachine, hof⟩ := hroutine ring (h.rings _ hk)
  refine ⟨ring, keys, last, hring, hgrows, hmachine, fun x hx => ?_⟩
  rcases mem_put hx with rfl | hx
  · exact hof
  · exact h.rings x hx

theorem openFor {resolver : HomeResolver} {options : KeyringOptions} {user : Option (List Char)}
    (h : s.Shows place cwd bytes) (handle : String) (hhome : resolver user = .ok place.home)
    (hsubdir : options.subdir = place.subdir) :
    (s.openFor handle resolver options user place.context).2.Shows place cwd bytes := by
  have hopen := Keyring.shows_openFor h.machine hhome hsubdir
  simp only [Session.openFor, perform]
  generalize (Keyring.openFor resolver options user place.context).run s.machine = r at hopen ⊢
  obtain ⟨outcome, m'⟩ := r
  obtain ⟨hmachine, hof⟩ := hopen
  cases outcome with
  | error fault => exact ⟨hmachine, h.rings⟩
  | ok ring =>
    refine ⟨hmachine, fun x hx => ?_⟩
    rcases mem_put (mem_close hx) with rfl | hx
    · exact hof ring rfl
    · exact h.rings x hx

/-- An operation writes the file for its renewal, if it has one, and for nothing else. -/
theorem step {op : Operation} (h : s.Shows place cwd bytes) (hop : op.At place) :
    ∃ keys last, Grows bytes (s.renewed? op).toList keys last ∧
      (s.step op).2.Shows place cwd last := by
  cases op with
  | openFor handle resolver options user context =>
    obtain ⟨hhome, hsubdir, rfl⟩ := hop
    have hopen := h.openFor handle hhome hsubdir
    refine ⟨[], bytes, .refl bytes, ?_⟩
    simp only [Session.step]
    generalize s.openFor handle resolver options user place.context = r at hopen ⊢
    obtain ⟨outcome, s'⟩ := r
    cases outcome <;> exact hopen
  | bestKey handle =>
    simp only [Session.step]
    cases hs : s.update handle Keyring.bestKey with
    | none =>
      rw [renewed?, ring?_of_update_eq_none hs]
      exact ⟨[], bytes, .refl bytes, h⟩
    | some result =>
      obtain ⟨outcome, s'⟩ := result
      obtain ⟨ring, keys, last, hring, hgrows, hshows⟩ :=
        h.update (fun _ hof => Keyring.grows_bestKey hof h.machine) hs
      rw [renewed?, hring]
      cases outcome <;> exact ⟨keys, last, hgrows, hshows⟩
  | reload handle addNew =>
    simp only [Session.step]
    cases hs : s.update handle (·.reload addNew) with
    | none =>
      rw [renewed?, ring?_of_update_eq_none hs]
      exact ⟨[], bytes, .refl bytes, h⟩
    | some result =>
      obtain ⟨outcome, s'⟩ := result
      obtain ⟨ring, keys, last, hring, hgrows, hshows⟩ :=
        h.update (fun _ hof => Keyring.grows_reload hof h.machine addNew) hs
      rw [renewed?, hring]
      cases outcome <;> exact ⟨keys, last, hgrows, hshows⟩
  | clone handle copy =>
    refine ⟨[], bytes, .refl bytes, ?_⟩
    simp only [Session.step, Session.clone, Option.bind_eq_bind, Option.pure_def]
    cases s.number? handle with
    | none => exact h
    | some n => exact h.close _
  | drop handle => exact ⟨[], bytes, .refl bytes, h.close _⟩

theorem turn {x : Turn} (h : s.Shows place cwd bytes)
    (hcalm : s.machine.Shows place.file cwd bytes → (x.1 s.machine).Shows place.file cwd bytes)
    (hop : x.2.At place) : ∃ keys last,
      Grows bytes ((s.onMachine x.1).renewed? x.2).toList keys last ∧
      (s.turn x).Shows place cwd last := by
  have hnext : (s.onMachine x.1).Shows place cwd bytes := ⟨hcalm h.machine, h.rings⟩
  exact hnext.step hop

/-- Turns write the file for their renewals, by induction on the turns. -/
theorem turns {xs : List Turn} (h : s.Shows place cwd bytes) (hcalm : s.Calm place cwd xs) :
    ∃ keys last, Grows bytes (s.renewals xs) keys last ∧ (s.turns xs).Shows place cwd last := by
  induction xs generalizing s bytes with
  | nil => exact ⟨[], bytes, .refl bytes, h⟩
  | cons x xs ih =>
    obtain ⟨hothers, hop, hrest⟩ := hcalm
    obtain ⟨keys, mid, hgrows, hturn⟩ := h.turn (hothers bytes) hop
    obtain ⟨more, last, hgrows', hturns⟩ := ih hturn hrest
    exact ⟨keys ++ more, last, hgrows.append hgrows', hturns⟩

end Shows

end Session

/-! ### The file after a session -/

/-- Contents that are not empty are those of a file. -/
theorem FileTree.read_of_contents {t : FileTree} {cwd : Location} {p : Path} {bytes : List UInt8}
    (h : t.contents cwd p = bytes) (hne : bytes ≠ []) : t.read cwd p = .ok bytes := by
  rw [contents] at h
  cases hr : t.read cwd p with
  | error e =>
    rw [hr] at h
    exact absurd h.symm hne
  | ok old =>
    rw [hr] at h
    exact congrArg Except.ok h

/-- The file after a session in which renewals succeeded, at times that are not negative and never
go back. It holds what was read from it for the first renewal and then the keys of all renewals, in
this order, as far as they are kept at the time of the last renewal; whatever was in it at the
start, and whatever else was tried. -/
theorem file_after_renewals {place : Place} {cwd : Location} {bytes : List UInt8} {s : Session}
    {xs : List Turn} (h : s.Shows place cwd bytes) (hcalm : s.Calm place cwd xs) {first : Instant}
    {later : List Instant} (htimes : (s.renewals xs).map Prod.fst = first :: later)
    (h0 : 0 ≤ first.toInt) (hsorted : (first :: later).Pairwise (·.toInt ≤ ·.toInt)) :
    ∃ keys,
      List.Forall₂ (fun x k => x.2.keys.getLast? = some k ∧ k.created = x.1) (s.renewals xs) keys ∧
      (s.turns xs).machine.files.read cwd place.file = .ok (KeyFile.serialize
        (kept (KeyFile.parse bytes first ++ keys) (later.getLastD first))) ∧
      ((kept (KeyFile.parse bytes first ++ keys) (later.getLastD first)).map Key.id).Nodup := by
  obtain ⟨keys, last, hgrows, hshows⟩ := h.turns hcalm
  have hne : s.renewals xs ≠ [] := fun he => by simp [he] at htimes
  have hread := FileTree.read_of_contents hshows.machine.contents_eq (hgrows.ne_nil hne)
  obtain ⟨rfl, hstorable⟩ := hgrows.closed htimes h0 hsorted
  exact ⟨keys, hgrows.keys_made, hread, hstorable.distinct⟩

/-- What somebody left in the file: a line at fault, and a key. -/
def leftBytes : List UInt8 := Text.Plain.bytes "x\n4 900 aa\n".toList

/-- A session that has this file, and for which the third draw of bytes fails. -/
def leftSession : Session where
  machine := { Keyring.sampleMachine [([['h']], .directory 0o755),
      ([['h'], ['k']], .directory 0o700), ([['h'], ['k'], ['c']], .file 0o600 leftBytes)] id with
    random := {
      script := [{ outcome := .ok [5, 0, 0, 0] }, { outcome := .ok [1] },
        { outcome := .error (.failed (.reported "no bytes")) }, { outcome := .ok [6, 0, 0, 0] }]
      after := { outcome := .ok [1] } } }

def turnAt (t : Instant) (op : Operation) : Turn :=
  (fun m => { m with clock := { now := t } }, op)

/-- Between two reloads that add a key, one fails, and a search finds a key at an earlier time. -/
def sampleTurns : List Turn :=
  [turnAt 1000 (sampleOpen "a"), turnAt 1000 (.reload "a" true), turnAt 1200 (.reload "a" true),
    turnAt 1100 (.bestKey "a"), turnAt 1400 (.reload "a" true)]

theorem leftSession_shows : leftSession.Shows samplePlace [] leftBytes where
  machine := {
    cwd_eq := rfl
    sound := {
      grounded := by
        apply FileTree.grounded_of_entries
        simp only [leftSession, Keyring.sampleMachine, List.forall_mem_cons]
        exact ⟨⟨_, rfl⟩, ⟨_, rfl⟩, ⟨_, rfl⟩, by simp⟩
      start := ⟨_, rfl⟩ }
    contents_eq := by decide +kernel
    others := fun i t => FileTree.Keeps.refl _ _ t
    draws := by
      simp only [leftSession, List.mem_cons, List.not_mem_nil, or_false, or_assoc]
      rintro d (rfl | rfl | rfl | rfl | rfl) t <;> exact FileTree.Keeps.refl _ _ t }
  rings := by simp [leftSession]

/-- Setting the clock leaves files alone. -/
theorem calm_turnAt {place : Place} {cwd : Location} {s : Session} {t : Instant} {op : Operation}
    {xs : List Turn} (hop : op.At place) (h : (s.turn (turnAt t op)).Calm place cwd xs) :
    s.Calm place cwd (turnAt t op :: xs) :=
  ⟨fun _ hs => hs.of_keeps (FileTree.Keeps.refl _ _ _) rfl rfl rfl, hop, h⟩

theorem sampleTurns_calm : leftSession.Calm samplePlace [] sampleTurns :=
  calm_turnAt ⟨rfl, rfl, rfl⟩ (calm_turnAt trivial (calm_turnAt trivial (calm_turnAt trivial
    (calm_turnAt trivial trivial))))

/-- The key that was left is kept by the first reload and dropped by the second. -/
theorem file_after_renewals_sample : ∃ keys,
    List.Forall₂ (fun x k => x.2.keys.getLast? = some k ∧ k.created = x.1)
      (leftSession.renewals sampleTurns) keys ∧
    (leftSession.turns sampleTurns).machine.files.read [] samplePlace.file =
      .ok (KeyFile.serialize (kept (KeyFile.parse leftBytes 1000 ++ keys) 1400)) ∧
    ((kept (KeyFile.parse leftBytes 1000 ++ keys) 1400).map Key.id).Nodup := by
  have htimes : (leftSession.renewals sampleTurns).map Prod.fst = [1000, 1400] := by
    decide +kernel
  have hfile :=
    file_after_renewals leftSession_shows sampleTurns_calm htimes (by decide) (by decide)
  rwa [List.getLastD_cons, List.getLastD_nil] at hfile

end Keyrings
