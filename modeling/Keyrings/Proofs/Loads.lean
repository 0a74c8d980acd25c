import Keyrings.Proofs.Interference
import Keyrings.Proofs.Runs

/-! What the keys of an open keyring are like, whatever others do. They were loaded at one reading
of the clock: those from the file were acceptable at that time, and a key that was made is from that
time. So every key comes from the window of acceptance around the load, and has an identifier of its
own. What is handed out later is recent then, but the clock may have been set back since the load,
and then a recent key may lie too far ahead for whoever reads the file. -/

namespace Keyrings

/-- An identifier finds a key if one of the keys has it, and then there is only that one. -/
theorem Storable.isSome_findId_iff {keys : List Key} (h : Storable keys) (id : Int32) :
    (findId keys id).isSome = true ↔ keys.countP (·.id == id) = 1 := by
  rw [List.countP_eq_length_filter]
  constructor
  · intro hsome
    obtain ⟨k, hk⟩ := Option.isSome_iff_exists.mp hsome
    have hid : k.id = id := by simpa using List.find?_some hk
    rw [← hid, h.filter_id_eq (List.mem_of_find?_eq_some hk), List.length_singleton]
  · intro hone
    obtain ⟨k, hk⟩ := List.exists_mem_of_length_pos (hone ▸ Nat.one_pos)
    obtain ⟨hk, hid⟩ := List.mem_filter.mp hk
    rw [findId, List.find?_isSome]
    exact ⟨k, hk, hid⟩

/-- Keys that a keyring has loaded at a time. Those from the file may be kept then, and a new one
was made then. -/
structure LoadedAt (time : Instant) (keys : List Key) : Prop where
  storable : Storable keys
  timely : ∀ k ∈ keys, k.isWithinLifetime time = true ∨ k.created = time

namespace LoadedAt

variable {time : Instant} {keys : List Key} {k : Key}

theorem nil (time : Instant) : LoadedAt time [] := ⟨Storable.nil, by simp⟩

theorem parse (contents : List UInt8) (time : Instant) :
    LoadedAt time (KeyFile.parse contents time) := by
  obtain ⟨hstorable, hlife⟩ := KeyFile.parse_storable contents time
  exact ⟨hstorable, fun k hk => Or.inl (hlife k hk)⟩

theorem append_fresh (h : LoadedAt time keys) (hk : IsFresh keys time k) :
    LoadedAt time (keys ++ [k]) := by
  refine ⟨h.storable.append_fresh hk, fun j hj => ?_⟩
  rcases List.mem_append.mp hj with hj | hj
  · exact h.timely j hj
  · rw [List.mem_singleton.mp hj]
    exact Or.inr hk.created_eq

/-- The window of acceptance, which holds of a new key too. -/
theorem created_window (h : LoadedAt time keys) (hk : k ∈ keys) :
    time.toInt - keptFor ≤ k.created.toInt ∧ k.created.toInt ≤ time.toInt + aheadBy := by
  rcases h.timely k hk with hlife | hmade
  · have := (Key.isWithinLifetime_iff k time).mp hlife
    omega
  · rw [hmade]
    unfold keptFor aheadBy
    omega

theorem created_nonneg (h : LoadedAt time keys) (h0 : 0 ≤ time.toInt) (hk : k ∈ keys) :
    0 ≤ k.created.toInt := by
  rcases h.timely k hk with hlife | hmade
  · exact ((Key.isWithinLifetime_iff k time).mp hlife).1
  · rwa [hmade]

end LoadedAt

/-! ### Whatever is answered to a keyring -/

theorem drawId_ensures (existing : List Key) (n : Nat) :
    (drawId existing n).Ensures fun times result => times = [] ∧
      ∀ id, result = .ok id → 0 ≤ id.toInt ∧ hasId existing id = false := by
  induction n with
  | zero => exact ⟨rfl, fun id h => by cases h⟩
  | succ n ih =>
    intro answer
    cases answer with
    | error fault => exact ⟨rfl, fun id h => by cases h⟩
    | ok block =>
      cases hid : usableId? existing block.bytes with
      | none =>
        simp only [Routine.done_bind, hid]
        exact ih
      | some id =>
        simp only [Routine.done_bind, hid]
        refine ⟨rfl, fun id' h => ?_⟩
        cases h
        exact usableId?_eq_some hid

theorem freshKey_ensures (existing : List Key) (now : Instant) :
    (freshKey existing now).Ensures fun times result => times = [] ∧
      ∀ k, result = .ok k → IsFresh existing now k := by
  refine (drawId_ensures existing maxIdAttempts).bind fun times result ⟨htimes, hid⟩ => ?_
  subst htimes
  cases result with
  | error fault => exact ⟨rfl, fun k h => by cases h⟩
  | ok id =>
    obtain ⟨hnonneg, hnew⟩ := hid id rfl
    intro answer
    cases answer with
    | error fault => exact ⟨rfl, fun k h => by cases h⟩
    | ok secret =>
      refine ⟨rfl, fun k h => ?_⟩
      cases h
      exact ⟨rfl, hnonneg, hnew, secret.length_bytes⟩

/-- Whatever happens, only the lock at the marker is taken. -/
theorem Lock.acquire_ensures (marker : Path) (policy : LockPolicy) :
    (acquire marker policy).Ensures fun times result => times = [] ∧
      ∀ lock, result = .ok lock → lock = ⟨marker⟩ := by
  unfold acquire
  induction policy.maxTimeouts with
  | zero =>
    intro _ answer
    cases answer with
    | error e => exact ⟨rfl, fun lock h => by cases h⟩
    | ok _ => exact ⟨rfl, fun lock h => by cases h; rfl⟩
  | succ n ih =>
    intro answer
    cases answer with
    | error e =>
      intro _
      exact ih
    | ok _ => exact ⟨rfl, fun lock h => by cases h; rfl⟩

namespace Keyring

theorem load_ensures (file : Path) (now : Instant) :
    (load file now).Ensures fun times keys => times = [] ∧ LoadedAt now keys := by
  intro answer
  cases answer with
  | error e => exact ⟨rfl, .nil now⟩
  | ok contents => exact ⟨rfl, .parse contents now⟩

theorem replace_ensures (file : Path) (bytes : List UInt8) :
    (replace file bytes).Ensures fun times _ => times = [] := by
  intro u created
  cases created with
  | error e => exact fun _ => rfl
  | ok _ =>
    intro stored
    cases stored with
    | error e => exact fun _ => rfl
    | ok _ =>
      intro moved
      cases moved with
      | error e => exact fun _ => rfl
      | ok _ => exact rfl

theorem extendFile_ensures (file : Path) (now : Instant) :
    (extendFile file now).Ensures fun times result => times = [] ∧
      ∀ keys, result = .ok keys → LoadedAt now keys := by
  refine (load_ensures file now).bind fun times old ⟨htimes, hold⟩ => ?_
  subst htimes
  refine (freshKey_ensures old now).bind fun times result ⟨htimes, hkey⟩ => ?_
  subst htimes
  cases result with
  | error fault => exact ⟨rfl, fun keys h => by cases h⟩
  | ok key =>
    refine (replace_ensures _ _).bind fun times result htimes => ?_
    subst htimes
    cases result with
    | error e => exact ⟨rfl, fun keys h => by cases h⟩
    | ok _ =>
      refine ⟨rfl, fun keys h => ?_⟩
      cases h
      exact hold.append_fresh (hkey key rfl)

theorem refresh_ensures (ring : Keyring) :
    ring.refresh.Ensures fun times ring' => ∃ time keys, times = [time] ∧
      LoadedAt time keys ∧ ring' = { ring with keys := keys } := by
  intro time
  refine (load_ensures ring.file time).bind fun times keys ⟨htimes, hkeys⟩ => ?_
  subst htimes
  exact ⟨time, keys, rfl, hkeys, rfl⟩

/-- A renewal looks at the clock once, and loads keys at that time or leaves the keyring as it
is. -/
theorem renew_ensures (ring : Keyring) :
    ring.renew.Ensures fun times result => ∃ time, times = [time] ∧
      ((∃ fault, result = (.error fault, ring)) ∨
        ∃ keys, LoadedAt time keys ∧ result = (.ok (), { ring with keys := keys })) := by
  intro time
  refine (Lock.acquire_ensures ring.marker ring.policy).bind fun times result ⟨htimes, _⟩ => ?_
  subst htimes
  cases result with
  | error fault => exact ⟨time, rfl, Or.inl ⟨_, rfl⟩⟩
  | ok lock =>
    refine (extendFile_ensures ring.file time).bind fun times result ⟨htimes, hkeys⟩ => ?_
    subst htimes
    intro _
    cases result with
    | error fault => exact ⟨time, rfl, Or.inl ⟨fault, rfl⟩⟩
    | ok keys => exact ⟨time, rfl, Or.inr ⟨keys, hkeys keys rfl, rfl⟩⟩

theorem reload_ensures (ring : Keyring) (addNew : Bool) :
    (ring.reload addNew).Ensures fun times result => ∃ time, times = [time] ∧
      ((∃ fault, result = (.error fault, ring)) ∨
        ∃ keys, LoadedAt time keys ∧ result = (.ok (), { ring with keys := keys })) := by
  cases addNew with
  | true => exact ring.renew_ensures
  | false =>
    refine ring.refresh_ensures.bind fun times ring' hrefresh => ?_
    obtain ⟨time, keys, rfl, hkeys, rfl⟩ := hrefresh
    exact ⟨time, rfl, Or.inr ⟨keys, hkeys, rfl⟩⟩

/-- How the search for the best key goes by its looks at the clock. A single look finds a loaded
key; a second one is that of a renewal, and there is a third if the renewal has loaded keys. -/
inductive Searched (ring : Keyring) : List Instant → Except Fault Int32 × Keyring → Prop
  | loaded {now : Instant} {k : Key} (hk : findRecent ring.keys now = some k) :
      Searched ring [now] (.ok k.id, ring)
  | failed {now time : Instant} {fault : Fault} : Searched ring [now, time] (.error fault, ring)
  | found {before time now : Instant} {keys : List Key} {k : Key} (hkeys : LoadedAt time keys)
      (hk : findRecent keys now = some k) :
      Searched ring [before, time, now] (.ok k.id, { ring with keys := keys })
  | missed {before time now : Instant} {keys : List Key} {fault : Fault}
      (hkeys : LoadedAt time keys) :
      Searched ring [before, time, now] (.error fault, { ring with keys := keys })

theorem bestKey_ensures (ring : Keyring) : ring.bestKey.Ensures ring.Searched := by
  intro now
  cases hloaded : findRecent ring.keys now with
  | some k =>
    simp only [Routine.done_bind, hloaded]
    exact .loaded hloaded
  | none =>
    simp only [Routine.done_bind, hloaded]
    refine ring.renew_ensures.bind fun times result hrenew => ?_
    obtain ⟨time, rfl, ⟨fault, rfl⟩ | ⟨keys, hkeys, rfl⟩⟩ := hrenew
    · exact .failed
    · intro later
      cases hk : findRecent keys later with
      | some k =>
        simp only [Routine.done_bind, hk]
        exact .found hkeys hk
      | none =>
        simp only [Routine.done_bind, hk]
        exact .missed hkeys

theorem openFor_ensures (resolver : HomeResolver) (options : KeyringOptions)
    (user : Option (List Char)) (context : List Char) :
    (openFor resolver options user context).Ensures fun times result =>
      ∀ ring, result = .ok ring → ∃ time, times = [time] ∧ LoadedAt time ring.keys := by
  unfold openFor
  cases resolver user with
  | error fault => exact fun ring h => by cases h
  | ok home =>
    simp only
    split_ifs
    · refine Routine.Ensures.bind (P := fun times ring => ∃ time, times = [time] ∧
        LoadedAt time ring.keys) ?_ fun times ring hring => ?_
      · refine (refresh_ensures _).bind fun times ring hrefresh => ?_
        obtain ⟨time, keys, rfl, hkeys, rfl⟩ := hrefresh
        exact fun _ => ⟨time, rfl, hkeys⟩
      · obtain ⟨time, rfl, hkeys⟩ := hring
        intro ring' h
        cases h
        exact ⟨time, rfl, hkeys⟩
    · exact fun ring h => by cases h

end Keyring

/-! ### Sessions with a record -/

namespace Session

theorem mem_put_iff {α β : Type} [BEq α] [LawfulBEq α] {table : List (α × β)} {name : α} {value : β}
    {x : α × β} : x ∈ put table name value ↔ x = (name, value) ∨ x ∈ table ∧ x.1 ≠ name := by
  simp [put]

/-- The keyring whose keys an operation has loaded, by number, and the time of the load: the first
look at the clock, or the second one if a search went on to a third. -/
def load? (s : Session) : Operation → Outcome → List Instant → Option (Nat × Instant)
  | .openFor .., .done, time :: _ => some (s.opened, time)
  | .bestKey handle, _, [_, time, _] => (s.number? handle).map (·, time)
  | .reload handle _, .done, time :: _ => (s.number? handle).map (·, time)
  | _, _, _ => none

end Session

structure Observed where
  session : Session
  /-- When the keyrings were loaded, by number, the latest load first. -/
  loads : List (Nat × Instant) := []
  /-- All readings of the clock, in their order. -/
  readings : List Instant := []

/-- An operation, and what others do to the machine meanwhile. -/
abbrev Occasion := Others × Operation

namespace Observed

def start (m : Machine) : Observed := { session := { machine := m } }

def step (o : Observed) (x : Occasion) : Outcome × Observed :=
  let ((outcome, times), s) := o.session.stepAmid x.1 x.2
  (outcome, ⟨s, (o.session.load? x.2 outcome times).toList ++ o.loads, o.readings ++ times⟩)

def run (o : Observed) : List Occasion → Observed
  | [] => o
  | x :: xs => (o.step x).2.run xs

/-- When the keyring that has a handle was loaded last. -/
def loadedAt? (o : Observed) (handle : String) : Option Instant :=
  (o.session.number? handle).bind fun n => o.loads.lookup n

end Observed

/-- Every keyring of a table has loaded its keys at the time that is recorded for it. -/
def Recorded (rings : List (Nat × Keyring)) (loads : List (Nat × Instant))
    (readings : List Instant) : Prop :=
  ∀ x ∈ rings, ∃ time ∈ readings, loads.lookup x.1 = some time ∧ LoadedAt time x.2.keys

namespace Recorded

variable {rings : List (Nat × Keyring)} {loads : List (Nat × Instant)}
  {readings times : List Instant} {n : Nat} {ring : Keyring} {time : Instant}

theorem subset {fewer : List (Nat × Keyring)} (h : Recorded rings loads readings)
    (hsub : fewer ⊆ rings) (times : List Instant) : Recorded fewer loads (readings ++ times) := by
  intro x hx
  obtain ⟨time, htime, hload⟩ := h x (hsub hx)
  exact ⟨time, List.mem_append_left times htime, hload⟩

/-- A keyring that has loaded its keys anew. -/
theorem put_loaded (h : Recorded rings loads readings) (htime : time ∈ times)
    (hring : LoadedAt time ring.keys) :
    Recorded (Session.put rings n ring) ((n, time) :: loads) (readings ++ times) := by
  intro x hx
  rcases Session.mem_put_iff.mp hx with rfl | ⟨hx, hne⟩
  · exact ⟨time, List.mem_append_right readings htime, by simp, hring⟩
  · obtain ⟨time', htime', hload, hkeys⟩ := h x hx
    have hskip : (x.1 == n) = false := by simpa using hne
    refine ⟨time', List.mem_append_left times htime', ?_, hkeys⟩
    rw [List.lookup_cons, hskip]
    exact hload

/-- A keyring that is as before. -/
theorem put_same (h : Recorded rings loads readings) (hring : rings.lookup n = some ring)
    (times : List Instant) :
    Recorded (Session.put rings n ring) loads (readings ++ times) := by
  refine h.subset (fun x hx => ?_) times
  rcases Session.mem_put_iff.mp hx with rfl | ⟨hx, -⟩
  · exact Session.mem_of_lookup hring
  · exact hx

end Recorded

namespace Session

variable {s : Session} {loads : List (Nat × Instant)} {readings : List Instant}

theorem load?_bestKey {handle : String} {n : Nat} (hn : s.number? handle = some n)
    (outcome : Outcome) (before time now : Instant) :
    s.load? (.bestKey handle) outcome [before, time, now] = some (n, time) := by
  simp [load?, hn]

theorem recorded_openFor {handle : String} {resolver : HomeResolver} {options : KeyringOptions}
    {user : Option (List Char)} {context : List Char} (h : Recorded s.rings loads readings) :
    (s.plan (.openFor handle resolver options user context)).Ensures fun times result =>
      Recorded result.2.rings
        ((s.load? (.openFor handle resolver options user context) result.1 times).toList ++ loads)
        (readings ++ times) := by
  refine (Keyring.openFor_ensures resolver options user context).bind fun times result hopen => ?_
  cases result with
  | error fault => exact h.subset (List.Subset.refl _) _
  | ok ring =>
    obtain ⟨time, rfl, hkeys⟩ := hopen ring rfl
    have hput : Recorded (put s.rings s.opened ring) ((s.opened, time) :: loads)
      (readings ++ [time]) := h.put_loaded (List.mem_singleton_self time) hkeys
    exact fun x hx => hput x (mem_close hx)

/-- A routine on a keyring loads its keys, as the plan of the session records, or leaves the keyring
as it is. -/
theorem recorded_use {α : Type} {handle : String} {op : Operation}
    {routine : Keyring → Routine (Except Fault α × Keyring)} {answer : α → Outcome}
    (h : Recorded s.rings loads readings)
    (hplan : s.plan op = s.use handle routine answer)
    (hnone : s.load? op .noHandle [] = none)
    (hroutine : ∀ n ring, s.number? handle = some n → (routine ring).Ensures fun times result =>
      (∃ time ∈ times, s.load? op (outcome answer result.1) times = some (n, time) ∧
        LoadedAt time result.2.keys) ∨
      s.load? op (outcome answer result.1) times = none ∧ result.2 = ring) :
    (s.plan op).Ensures fun times result => Recorded result.2.rings
      ((s.load? op result.1 times).toList ++ loads) (readings ++ times) := by
  rw [hplan]
  rcases s.use_cases handle routine answer with huse | ⟨n, ring, hn, hring, huse⟩
  · rw [huse]
    simp only [Routine.Ensures, hnone]
    exact h.subset (List.Subset.refl _) _
  · rw [huse]
    refine (hroutine n ring hn).bind fun times result hresult => ?_
    simp only [Routine.Ensures, List.append_nil]
    rcases hresult with ⟨time, htime, hload, hkeys⟩ | ⟨hload, hsame⟩
    · rw [hload]
      exact h.put_loaded htime hkeys
    · rw [hload, hsame]
      exact h.put_same hring times

/-- Whatever is answered, an operation keeps the record. -/
theorem recorded_plan (h : Recorded s.rings loads readings) (op : Operation) :
    (s.plan op).Ensures fun times result => Recorded result.2.rings
      ((s.load? op result.1 times).toList ++ loads) (readings ++ times) := by
  cases op with
  | openFor handle resolver options user context => exact recorded_openFor h
  | bestKey handle =>
    refine recorded_use h rfl rfl fun n ring hn => ring.bestKey_ensures.mono ?_
    intro times result hsearch
    cases hsearch with
    | loaded hk => exact Or.inr ⟨rfl, rfl⟩
    | failed => exact Or.inr ⟨rfl, rfl⟩
    | found hkeys hk => exact Or.inl ⟨_, by simp, load?_bestKey hn _ _ _ _, hkeys⟩
    | missed hkeys => exact Or.inl ⟨_, by simp, load?_bestKey hn _ _ _ _, hkeys⟩
  | reload handle addNew =>
    refine recorded_use h rfl rfl fun n ring hn => (ring.reload_ensures addNew).mono ?_
    intro times result hreload
    obtain ⟨time, rfl, ⟨fault, rfl⟩ | ⟨keys, hkeys, rfl⟩⟩ := hreload
    · exact Or.inr ⟨rfl, rfl⟩
    · exact Or.inl ⟨time, by simp, by simp [load?, outcome, hn], hkeys⟩
  | clone handle copy =>
    refine h.subset (fun x hx => ?_) []
    simp only [step, clone, Option.bind_eq_bind, Option.pure_def] at hx
    cases hn : s.number? handle with
    | none => simpa only [hn, Option.bind_none] using hx
    | some n =>
      simp only [hn, Option.bind_some] at hx
      exact (List.mem_filter.mp hx).1
  | drop handle =>
    have hsub : (s.step (.drop handle)).2.rings ⊆ s.rings := List.filter_subset_self _
    exact h.subset hsub []

end Session

namespace Observed

/-- Every open keyring has its load on record. -/
def Sound (o : Observed) : Prop := Recorded o.session.rings o.loads o.readings

theorem sound_start (m : Machine) : (start m).Sound := fun _ hx => absurd hx List.not_mem_nil

theorem Sound.step {o : Observed} (h : o.Sound) (x : Occasion) : (o.step x).2.Sound :=
  (Session.recorded_plan h x.2).amid x.1 o.session.machine

/-- Whatever is done and whatever others do, by induction on the operations. -/
theorem Sound.run {o : Observed} (h : o.Sound) (xs : List Occasion) : (o.run xs).Sound := by
  induction xs generalizing o with
  | nil => exact h
  | cons x xs ih => exact ih (h.step x)

/-- What is on record of the keyring that has a handle. -/
theorem Sound.loadedAt {o : Observed} (h : o.Sound) {handle : String} {ring : Keyring}
    (hring : o.session.ring? handle = some ring) :
    ∃ time ∈ o.readings, o.loadedAt? handle = some time ∧ LoadedAt time ring.keys := by
  obtain ⟨n, hn, hlookup⟩ := Option.bind_eq_some_iff.mp hring
  obtain ⟨time, htime, hload, hkeys⟩ := h _ (Session.mem_of_lookup hlookup)
  refine ⟨time, htime, ?_, hkeys⟩
  rw [loadedAt?, hn, Option.bind_some]
  exact hload

end Observed

/-! ### What is loaded -/

/-- Whatever was done on a machine and whatever others did to it, to its files, its clock and its
random bytes, at any moment: the keys of an open keyring have different identifiers from zero up and
are not empty, they come from the window around the time of the load, and an identifier finds a key
if there is exactly one with it. -/
theorem loaded_keys (m : Machine) (xs : List Occasion) {handle : String} {ring : Keyring}
    (hring : ((Observed.start m).run xs).session.ring? handle = some ring) :
    ∃ time, ((Observed.start m).run xs).loadedAt? handle = some time ∧
      (ring.keys.map (·.id)).Nodup ∧
      (∀ k ∈ ring.keys, 0 ≤ k.id.toInt ∧ k.id.toInt ≤ Line.maxId ∧ k.secret ≠ [] ∧
        time.toInt - keptFor ≤ k.created.toInt ∧ k.created.toInt ≤ time.toInt + aheadBy) ∧
      ∀ id, (ring.key? id).isSome = true ↔ ring.keys.countP (·.id == id) = 1 := by
  obtain ⟨time, -, htime, hloaded⟩ := ((Observed.sound_start m).run xs).loadedAt hring
  have hstorable := hloaded.storable
  refine ⟨time, htime, hstorable.distinct, fun k hk => ?_, hstorable.isSome_findId_iff⟩
  have hmax : k.id.toInt ≤ Line.maxId := by
    have := k.id.toInt_lt
    unfold Line.maxId
    omega
  exact ⟨hstorable.id_nonneg k hk, hmax, hstorable.secret_ne_nil k hk, hloaded.created_window hk⟩

def twiceFile : Entry := .file 0o600 (Text.Plain.bytes "4 900 aa\n4 950 bb\nx\n".toList)

/-- Others put `twiceFile` in place just before it is read, and set the clock back before it is
looked at for the last time. -/
def meddling : Others
  | 3, m => { m with files := m.files.insert [['h'], ['k'], ['c']] twiceFile }
  | 11, m => { m with clock := { now := 400 } }
  | _, m => m

def meddled : List Occasion := [(fun _ => id, sampleOpen "a"), (meddling, .bestKey "a")]

/-- The keys were loaded before the clock was set back. -/
theorem loaded_keys_meddled : ∃ ring,
    ((Observed.start sampleSession.machine).run meddled).session.ring? "a" = some ring ∧
    ring.keys = [⟨4, 900, [170]⟩, ⟨5, 1000, List.replicate 24 1⟩] ∧
    (ring.keys.map (·.id)).Nodup ∧
    (∀ k ∈ ring.keys, 0 ≤ k.id.toInt ∧ k.id.toInt ≤ Line.maxId ∧ k.secret ≠ [] ∧
      (1000 : Instant).toInt - keptFor ≤ k.created.toInt ∧
      k.created.toInt ≤ (1000 : Instant).toInt + aheadBy) ∧
    ∀ id, (ring.key? id).isSome = true ↔ ring.keys.countP (·.id == id) = 1 := by
  have hkeys : (((Observed.start sampleSession.machine).run meddled).session.ring? "a").map
      Keyring.keys = some [⟨4, 900, [170]⟩, ⟨5, 1000, List.replicate 24 1⟩] := by decide +kernel
  have htime : ((Observed.start sampleSession.machine).run meddled).loadedAt? "a" = some 1000 := by
    decide +kernel
  obtain ⟨ring, hring, hkeys⟩ := Option.map_eq_some_iff.mp hkeys
  obtain ⟨time, hload, hloaded⟩ := loaded_keys sampleSession.machine meddled hring
  rw [htime] at hload
  cases hload
  exact ⟨ring, hring, hkeys, hloaded⟩

/-! ### What is handed out -/

/-- The search hands out the first key that is recent at its last look at the clock, from the keys
that the keyring has loaded then. -/
theorem Session.bestKey_plan (s : Session) (handle : String) :
    (s.plan (.bestKey handle)).Ensures fun times result => ∀ id, result.1 = .key id →
      ∃ ring k now, result.2.ring? handle = some ring ∧ findRecent ring.keys now = some k ∧
        k.id = id ∧ times.getLast? = some now := by
  rw [plan]
  rcases s.use_cases handle Keyring.bestKey .key with huse | ⟨n, ring, hn, -, huse⟩
  · rw [huse]
    exact fun id h => by cases h
  · have hput : ∀ ring : Keyring, Session.ring? { s with rings := put s.rings n ring } handle =
        some ring := fun ring => by
      have hnumber : Session.number? { s with rings := put s.rings n ring } handle = some n := hn
      rw [ring?, hnumber]
      simp [put]
    rw [huse]
    refine ring.bestKey_ensures.bind fun times result hsearch => ?_
    simp only [Routine.Ensures, List.append_nil]
    cases hsearch with
    | @loaded now k hk =>
      intro id h
      cases h
      exact ⟨ring, k, now, hput ring, hk, rfl, rfl⟩
    | failed => exact fun id h => by cases h
    | @found before time now keys k hkeys hk =>
      intro id h
      cases h
      exact ⟨_, k, now, hput _, hk, rfl, rfl⟩
    | missed hkeys => exact fun id h => by cases h

/-- A key that is handed out is recent at the time of its selection. As long as no clock shows a
time before 1970, the key may be kept at that time unless it lies too far ahead, as a key can only
if the clock was set back since the load; and then whoever reads it from a file drops it. -/
theorem handed_out_lifetime (m : Machine) (xs : List Occasion) {others : Others} {handle : String}
    {id : Int32} {o : Observed}
    (hkey : ((Observed.start m).run xs).step (others, .bestKey handle) = (.key id, o))
    (hclock : ∀ t ∈ o.readings, 0 ≤ t.toInt) :
    ∃ ring k now time, o.session.ring? handle = some ring ∧ ring.key? id = some k ∧
      o.readings.getLast? = some now ∧ o.loadedAt? handle = some time ∧
      k.isRecent now = true ∧
      (k.isWithinLifetime now = true ↔ k.created.toInt ≤ now.toInt + aheadBy) ∧
      (time.toInt ≤ now.toInt → k.isWithinLifetime now = true) ∧
      ∀ keys, Storable keys → k ∈ keys → (k ∈ KeyFile.parse (KeyFile.serialize keys) now ↔
        k.created.toInt ≤ now.toInt + aheadBy) := by
  have ho : (((Observed.start m).run xs).step (others, .bestKey handle)).2 = o :=
    congrArg Prod.snd hkey
  have hsound := ((Observed.sound_start m).run xs).step (others, .bestKey handle)
  have hplan := (((Observed.start m).run xs).session.bestKey_plan handle).amid others
    ((Observed.start m).run xs).session.machine
  obtain ⟨ring, k, now, hring, hrecent, hid, hlast⟩ := hplan id (congrArg Prod.fst hkey)
  have hreadings : o.readings.getLast? = some now := by
    rw [← ho]
    simp only [Observed.step, Session.stepAmid, List.getLast?_append, hlast, Option.some_or]
  have hring' : o.session.ring? handle = some ring := by
    rw [← ho]
    exact hring
  rw [ho] at hsound
  obtain ⟨time, htime, hload, hloaded⟩ := hsound.loadedAt hring'
  have hmem := List.mem_of_find?_eq_some hrecent
  have h0 := hloaded.created_nonneg (hclock time htime) hmem
  have hk := isRecent_of_findRecent hrecent
  have hlife : k.isWithinLifetime now = true ↔ k.created.toInt ≤ now.toInt + aheadBy := by
    have hafter := ((Key.isRecent_iff k now).mp hk).1
    rw [Key.isWithinLifetime_iff]
    unfold keptFor
    unfold recentFor at hafter
    omega
  refine ⟨ring, k, now, time, hring', ?_, hreadings, hload, hk, hlife, fun hle => ?_, ?_⟩
  · rw [← hid]
    exact hloaded.storable.findId_eq_some hmem
  · have := (hloaded.created_window hmem).2
    exact hlife.mpr (by omega)
  · intro keys hkeys hin
    rw [KeyFile.parse_serialize hkeys, kept, List.mem_filter, hlife]
    exact and_iff_right hin

def setClock (t : Instant) : Others := fun _ m => { m with clock := { now := t } }

def timed : List Occasion := [(setClock 1000, sampleOpen "a"), (setClock 1000, .bestKey "a")]

def searchedAt (t : Instant) : Outcome × Observed :=
  ((Observed.start sampleSession.machine).run timed).step (setClock t, .bestKey "a")

theorem searchedAt_record {t : Instant} (ht : t = 700 ∨ t = 699) :
    (searchedAt t).2.readings = [1000, 1000, 1000, 1000, t] ∧
    (∀ u ∈ (searchedAt t).2.readings, 0 ≤ u.toInt) ∧
    ((searchedAt t).2.session.ring? "a").bind (·.key? 5) =
      some ⟨5, 1000, List.replicate 24 1⟩ := by
  have hreadings : (searchedAt t).2.readings = [1000, 1000, 1000, 1000, t] := by
    rcases ht with rfl | rfl <;> decide +kernel
  refine ⟨hreadings, ?_, by rcases ht with rfl | rfl <;> decide +kernel⟩
  simp only [hreadings, List.forall_mem_cons]
  rcases ht with rfl | rfl <;>
    exact ⟨by decide, by decide, by decide, by decide, by decide, by simp⟩

/-- The clock is five minutes behind the key, which is as far ahead as is accepted. -/
theorem handed_out_lifetime_behind : ∃ o ring k, searchedAt 700 = (.key 5, o) ∧
    o.session.ring? "a" = some ring ∧ ring.key? 5 = some k ∧ k.isRecent 700 = true ∧
    k.isWithinLifetime 700 = true := by
  have hkey : searchedAt 700 = (.key 5, (searchedAt 700).2) := Prod.ext rfl rfl
  obtain ⟨hreadings, hclock, hfound⟩ := searchedAt_record (Or.inl (Eq.refl 700))
  obtain ⟨ring, k, now, time, hring, hk, hnow, -, hrecent, hlife, -, -⟩ :=
    handed_out_lifetime sampleSession.machine timed hkey hclock
  rw [hreadings] at hnow
  cases hnow
  rw [hring, Option.bind_some, hk] at hfound
  cases hfound
  exact ⟨_, ring, _, hkey, hring, hk, hrecent, hlife.mpr (by decide)⟩

/-- One second more, and the key that is handed out may not be kept, although no look at the clock
ever showed a time before 1970. -/
theorem handed_out_ahead : ¬ ∀ (m : Machine) (xs : List Occasion) (others : Others)
    (handle : String) (id : Int32) (o : Observed),
    ((Observed.start m).run xs).step (others, .bestKey handle) = (.key id, o) →
    (∀ t ∈ o.readings, 0 ≤ t.toInt) →
    ∃ ring k now, o.session.ring? handle = some ring ∧ ring.key? id = some k ∧
      o.readings.getLast? = some now ∧ k.isWithinLifetime now = true := by
  intro h
  have hkey : searchedAt 699 = (.key 5, (searchedAt 699).2) := Prod.ext rfl rfl
  obtain ⟨hreadings, hclock, hfound⟩ := searchedAt_record (Or.inr (Eq.refl 699))
  obtain ⟨ring, k, now, hring, hk, hnow, hlife⟩ := h _ _ _ _ _ _ hkey hclock
  rw [hreadings] at hnow
  cases hnow
  rw [hring, Option.bind_some, hk] at hfound
  cases hfound
  exact absurd hlife (by decide)

end Keyrings
