import Keyrings.Proofs.History
import Keyrings.Session

/-! Runs of a session whose handles are all on keyrings of one place. Every operation goes on with
the history of the file, and so does a run of any length. Two consequences are that a key which was
handed out is handed out again by every handle as long as it is recent, and that whoever reads the
file in time finds it. -/

namespace Keyrings

/-- Whether an operation opens no keyring but that of a place. -/
def Operation.At (place : Place) : Operation → Prop
  | .openFor _ resolver options user context =>
    resolver user = .ok place.home ∧ options.subdir = place.subdir ∧ context = place.context
  | .bestKey _ | .reload .. | .clone .. | .drop _ => True

/-- Operations with the times at which they are done. -/
abbrev Schedule := List (Instant × Operation)

namespace Schedule

/-- Whether the times never go back, from some time on, and the operations are at a place. -/
def Timed (place : Place) : Instant → Schedule → Prop
  | _, [] => True
  | since, (t, op) :: rest => since.toInt ≤ t.toInt ∧ op.At place ∧ Timed place t rest

/-- The time of the last operation, or the time of the start if there is none. -/
def last : Instant → Schedule → Instant
  | since, [] => since
  | _, (t, _) :: rest => last t rest

variable {place : Place} {since : Instant}

theorem timed_append {schedule more : Schedule} : Timed place since (schedule ++ more) ↔
    Timed place since schedule ∧ Timed place (last since schedule) more := by
  induction schedule generalizing since with
  | nil => simp [Timed, last]
  | cons x schedule ih =>
    obtain ⟨t, op⟩ := x
    simp only [List.cons_append, Timed, last, ih, and_assoc]

theorem le_last {schedule : Schedule} (h : Timed place since schedule) :
    since.toInt ≤ (last since schedule).toInt := by
  induction schedule generalizing since with
  | nil => exact Int.le_refl _
  | cons x schedule ih =>
    obtain ⟨t, op⟩ := x
    obtain ⟨ht, -, hrest⟩ := h
    exact Int.le_trans ht (ih hrest)

end Schedule

namespace Session

def atTime (s : Session) (t : Instant) : Session :=
  s.onMachine fun m => { m with clock := { now := t } }

def stepAt (s : Session) (t : Instant) (op : Operation) : Outcome × Session := (s.atTime t).step op

def runAt (s : Session) : Schedule → Session
  | [] => s
  | (t, op) :: rest => (s.stepAt t op).2.runAt rest

/-! ### Tables -/

theorem mem_put {α β : Type} [BEq α] {table : List (α × β)} {name : α} {value : β} {x : α × β}
    (h : x ∈ put table name value) : x = (name, value) ∨ x ∈ table := by
  rcases List.mem_cons.mp h with h | h
  · exact Or.inl h
  · exact Or.inr (List.mem_filter.mp h).1

theorem mem_of_lookup {α β : Type} [BEq α] [LawfulBEq α] {table : List (α × β)} {name : α}
    {value : β} (h : table.lookup name = some value) : (name, value) ∈ table := by
  obtain ⟨front, rest, rfl, -⟩ := List.lookup_eq_some_iff.mp h
  simp

theorem mem_close {s : Session} {x : Nat × Keyring} (h : x ∈ s.close.rings) : x ∈ s.rings :=
  (List.mem_filter.mp h).1

theorem mem_of_ring? {s : Session} {handle : String} {ring : Keyring}
    (h : s.ring? handle = some ring) : ∃ n, (n, ring) ∈ s.rings := by
  obtain ⟨n, -, hn⟩ := Option.bind_eq_some_iff.mp h
  exact ⟨n, mem_of_lookup hn⟩

/-- A routine is run on the keyring that has the handle, and the handle has its keyring after. -/
theorem update_eq_some {α : Type} {s s' : Session} {handle : String} {a : α}
    {routine : Keyring → Routine (α × Keyring)} (h : s.update handle routine = some (a, s')) :
    ∃ n ring, s.ring? handle = some ring ∧ a = ((routine ring).run s.machine).1.1 ∧
      s' = { s with
        machine := ((routine ring).run s.machine).2
        rings := put s.rings n ((routine ring).run s.machine).1.2 } ∧
      s'.ring? handle = some ((routine ring).run s.machine).1.2 := by
  simp only [update, Option.bind_eq_bind, Option.bind_eq_some_iff, Option.pure_def,
    Option.some.injEq, Prod.mk.injEq] at h
  obtain ⟨n, hn, ring, hring, ha, hs⟩ := h
  refine ⟨n, ring, ?_, ha.symm, hs.symm, ?_⟩
  · rw [ring?, hn, Option.bind_some, hring]
  · have hnumber : s'.number? handle = some n := by
      rw [← hs]
      exact hn
    rw [ring?, hnumber, ← hs]
    simp [put, perform]

theorem update_of_key {s s' : Session} {handle : String} {id : Int32}
    (h : s.step (.bestKey handle) = (.key id, s')) :
    s.update handle Keyring.bestKey = some (.ok id, s') := by
  simp only [step] at h
  split at h
  · cases h
  · rename_i heq
    cases h
    exact heq
  · cases h

theorem update_of_done {s s' : Session} {handle : String} {addNew : Bool}
    (h : s.step (.reload handle addNew) = (.done, s')) :
    s.update handle (·.reload addNew) = some (.ok (), s') := by
  simp only [step] at h
  split at h
  · cases h
  · rename_i heq
    cases h
    exact heq
  · cases h

/-- A recent key that is loaded is handed out at once. -/
theorem step_of_findRecent {s : Session} {handle : String} {ring : Keyring} {k : Key}
    (hring : s.ring? handle = some ring) (hk : findRecent ring.keys s.machine.clock.now = some k) :
    ∃ s', s.step (.bestKey handle) = (.key k.id, s') ∧ s'.machine = (s.machine.answer .now).2 := by
  obtain ⟨n, hn, hlookup⟩ := Option.bind_eq_some_iff.mp hring
  have hrun : ring.bestKey.run s.machine = ((.ok k.id, ring), (s.machine.answer .now).2) := by
    have hsearch := Keyring.bestKey_run ring s.machine
    generalize ring.bestKey.run s.machine = r at hsearch ⊢
    cases hsearch with
    | @loaded k' hk' =>
      rw [hk] at hk'
      cases hk'
      rfl
    | failed hnone hren =>
      rw [hk] at hnone
      contradiction
    | found hnone hren hk' =>
      rw [hk] at hnone
      contradiction
    | missed hnone hren hk' =>
      rw [hk] at hnone
      contradiction
  refine ⟨{ s with machine := (s.machine.answer .now).2, rings := put s.rings n ring }, ?_, rfl⟩
  simp only [step, update, hn, hlookup, perform, hrun, Option.bind_eq_bind, Option.bind_some,
    Option.pure_def]

/-! ### Open keyrings -/

/-- Whether every open keyring is one of a context below a directory. -/
def Proper (s : Session) : Prop := ∀ x ∈ s.rings, x.2.Proper

theorem Proper.update {α : Type} {s s' : Session} {handle : String} {a : α}
    {routine : Keyring → Routine (α × Keyring)} (h : s.Proper)
    (hroutine : ∀ ring : Keyring, ring.Proper → ((routine ring).run s.machine).1.2.Proper)
    (hs : s.update handle routine = some (a, s')) : s'.Proper := by
  obtain ⟨n, ring, hring, -, rfl, -⟩ := update_eq_some hs
  obtain ⟨k, hk⟩ := mem_of_ring? hring
  intro x hx
  rcases mem_put hx with rfl | hx
  · exact hroutine ring (h _ hk)
  · exact h x hx

theorem Proper.close {s : Session} (h : s.Proper) : s.close.Proper :=
  fun x hx => h x (mem_close hx)

theorem Proper.openFor {s : Session} (h : s.Proper) (handle : String) (resolver : HomeResolver)
    (options : KeyringOptions) (user : Option (List Char)) (context : List Char) :
    (s.openFor handle resolver options user context).2.Proper := by
  simp only [Session.openFor, perform]
  cases hrun : (Keyring.openFor resolver options user context).run s.machine with
  | mk outcome m' =>
    cases outcome with
    | error fault => exact h
    | ok ring =>
      refine Proper.close fun x hx => ?_
      rcases mem_put hx with rfl | hx
      · exact Keyring.proper_of_openFor hrun
      · exact h x hx

/-- Whatever is done, on whatever machine, open keyrings keep their paths. -/
theorem Proper.step {s : Session} (h : s.Proper) (op : Operation) : (s.step op).2.Proper := by
  cases op with
  | openFor handle resolver options user context =>
    have hproper := h.openFor handle resolver options user context
    simp only [Session.step]
    cases hs : s.openFor handle resolver options user context with
    | mk outcome s' =>
      rw [hs] at hproper
      cases outcome <;> exact hproper
  | bestKey handle =>
    simp only [Session.step]
    cases hs : s.update handle Keyring.bestKey with
    | none => exact h
    | some result =>
      obtain ⟨outcome, s'⟩ := result
      have hproper := h.update (fun _ hr => hr.bestKey _) hs
      cases outcome <;> exact hproper
  | reload handle addNew =>
    simp only [Session.step]
    cases hs : s.update handle (·.reload addNew) with
    | none => exact h
    | some result =>
      obtain ⟨outcome, s'⟩ := result
      have hproper := h.update (fun _ hr => hr.reload addNew _) hs
      cases outcome <;> exact hproper
  | clone handle copy =>
    simp only [Session.step, Session.clone, Option.bind_eq_bind, Option.pure_def]
    cases s.number? handle with
    | none => exact h
    | some n => exact Proper.close h
  | drop handle => exact Proper.close h

end Session

/-! ### One operation -/

/-- The files and all keyrings of a session go by one history. -/
structure Follows (place : Place) (history : List Key) (now : Instant) (s : Session) : Prop where
  nonneg : 0 ≤ now.toInt
  holds : Holds place history now s.machine
  rings : ∀ x ∈ s.rings, Loaded place history now x.2

namespace Follows

variable {place : Place} {history : List Key} {now t : Instant} {s s' : Session} {handle : String}

theorem loaded (h : Follows place history now s) {ring : Keyring}
    (hring : s.ring? handle = some ring) : Loaded place history now ring := by
  obtain ⟨n, hn⟩ := Session.mem_of_ring? hring
  exact h.rings _ hn

theorem atTime (h : Follows place history now s) (ht : now.toInt ≤ t.toInt) :
    Follows place history t (s.atTime t) where
  nonneg := Int.le_trans h.nonneg ht
  holds := (h.holds.of_le ht).of_eq ⟨h.holds.undisturbed.others_eq, h.holds.undisturbed.quiet⟩
    rfl rfl
  rings x hx := (h.rings x hx).of_more List.prefix_rfl ht

/-- The clock of a session at a time. -/
theorem isSteady_atTime (s : Session) (t : Instant) : (s.atTime t).machine.clock.IsSteady t :=
  ⟨rfl, fun _ => rfl, rfl⟩

/-- Handles that come and go change no keyring. -/
theorem close (h : Follows place history now s) (handles : List (String × Nat)) :
    Follows place history now (Session.close { s with handles := handles }) where
  nonneg := h.nonneg
  holds := h.holds
  rings x hx := by
    have hs : x ∈ ({ s with handles := handles } : Session).rings := Session.mem_close hx
    exact h.rings x hs

/-- What a routine does to one keyring, the session follows. -/
theorem update {α : Type} {a : α} {routine : Keyring → Routine (α × Keyring)}
    {Q : List Key → Keyring → α → Keyring → Prop} (h : Follows place history t s)
    (hroutine : ∀ ring, Loaded place history t ring → ∃ more, history <+: more ∧
      Holds place more t ((routine ring).run s.machine).2 ∧
      Loaded place more t ((routine ring).run s.machine).1.2 ∧
      Q more ring ((routine ring).run s.machine).1.1 ((routine ring).run s.machine).1.2)
    (hs : s.update handle routine = some (a, s')) :
    ∃ more ring ring', history <+: more ∧ Follows place more t s' ∧ s.ring? handle = some ring ∧
      s'.ring? handle = some ring' ∧ Q more ring a ring' := by
  obtain ⟨n, ring, hring, rfl, rfl, hring'⟩ := Session.update_eq_some hs
  obtain ⟨more, hmore, hholds, hloaded, hq⟩ := hroutine ring (h.loaded hring)
  refine ⟨more, ring, _, hmore, ⟨h.nonneg, hholds, fun x hx => ?_⟩, hring, hring', hq⟩
  rcases Session.mem_put hx with rfl | hx
  · exact hloaded
  · exact (h.rings x hx).of_more hmore (Int.le_refl _)

/-- A keyring that has loaded all that is kept has a kept key once. -/
theorem filter_id_eq (h : Follows place history t s) {ring : Keyring} {k : Key}
    (hring : s.ring? handle = some ring) (hkeys : ring.keys = kept history t) (hk : k ∈ history)
    (hlife : k.isWithinLifetime t = true) : ring.keys.filter (·.id == k.id) = [k] := by
  have hkept : k ∈ ring.keys := by
    rw [hkeys]
    exact List.mem_filter.mpr ⟨hk, hlife⟩
  exact (h.loaded hring).storable.filter_id_eq hkept

/-- Opening a keyring of the place. -/
theorem openFor (handle : String) {resolver : HomeResolver} {options : KeyringOptions}
    {user : Option (List Char)} (h : Follows place history t s) (hc : s.machine.clock.IsSteady t)
    (hhome : resolver user = .ok place.home) (hsubdir : options.subdir = place.subdir)
    (hv : Context.isValid place.context = true) :
    ∃ s' ring, s.openFor handle resolver options user place.context = (.ok (), s') ∧
      Follows place history t s' ∧ s'.ring? handle = some ring ∧ ring.keys = kept history t := by
  obtain ⟨ring, m', hrun, hholds, hloaded, hkeys⟩ := openFor_holds h.holds hc hhome hsubdir hv
  have hopen : s.openFor handle resolver options user place.context =
      (.ok (), Session.close { s with
        machine := m'
        rings := Session.put s.rings s.opened ring
        handles := Session.put s.handles handle s.opened
        opened := s.opened + 1 }) := by
    simp only [Session.openFor, Session.perform, hrun]
  refine ⟨_, ring, hopen, ⟨h.nonneg, hholds, fun x hx => ?_⟩, ?_, hkeys⟩
  · rcases Session.mem_put (Session.mem_close hx) with rfl | hx
    · exact hloaded
    · exact h.rings x hx
  · simp [Session.ring?, Session.number?, Session.close, Session.put]

/-- The search for the best key through a handle. -/
theorem bestKey {outcome : Except Fault Int32} (h : Follows place history t s)
    (hc : s.machine.clock.IsSteady t) (hs : s.update handle Keyring.bestKey = some (outcome, s')) :
    ∃ more ring ring', history <+: more ∧ Follows place more t s' ∧ s.ring? handle = some ring ∧
      s'.ring? handle = some ring' ∧ ∀ id, outcome = .ok id →
        (∃ k, findRecent ring'.keys t = some k ∧ k.id = id) ∧
        (findRecent ring.keys t = none → ring'.keys = kept more t) :=
  h.update (Q := fun more ring outcome ring' => ∀ id, outcome = .ok id →
      (∃ k, findRecent ring'.keys t = some k ∧ k.id = id) ∧
      (findRecent ring.keys t = none → ring'.keys = kept more t))
    (fun _ hr => bestKey_holds h.holds hr hc h.nonneg) hs

/-- A reload through a handle. -/
theorem reload {outcome : Except Fault Unit} {addNew : Bool} (h : Follows place history t s)
    (hc : s.machine.clock.IsSteady t)
    (hs : s.update handle (·.reload addNew) = some (outcome, s')) :
    ∃ more ring ring', history <+: more ∧ Follows place more t s' ∧ s.ring? handle = some ring ∧
      s'.ring? handle = some ring' ∧ (outcome = .ok () → ring'.keys = kept more t) :=
  h.update (Q := fun more _ outcome ring' => outcome = .ok () → ring'.keys = kept more t)
    (fun _ hr => reload_holds h.holds hr hc h.nonneg addNew) hs

/-- Every operation goes on with the history. -/
theorem step {op : Operation} (h : Follows place history t s) (hc : s.machine.clock.IsSteady t)
    (hop : op.At place) : ∃ more, history <+: more ∧ Follows place more t (s.step op).2 := by
  cases op with
  | openFor handle resolver options user context =>
    obtain ⟨hhome, hsubdir, rfl⟩ := hop
    cases hv : Context.isValid place.context with
    | true =>
      obtain ⟨s', ring, hopen, hfollows, -, -⟩ := openFor handle h hc hhome hsubdir hv
      refine ⟨history, List.prefix_rfl, ?_⟩
      simp only [Session.step, hopen]
      exact hfollows
    | false =>
      have hopen : s.openFor handle resolver options user place.context =
          (.error (.failed .invalidContext), s) := by
        simp [Session.openFor, Session.perform, Keyring.openFor, hhome, hv]
      refine ⟨history, List.prefix_rfl, ?_⟩
      simp only [Session.step, hopen]
      exact h
  | bestKey handle =>
    simp only [Session.step]
    cases hs : s.update handle Keyring.bestKey with
    | none => exact ⟨history, List.prefix_rfl, h⟩
    | some result =>
      obtain ⟨outcome, s'⟩ := result
      obtain ⟨more, -, -, hmore, hfollows, -⟩ := h.bestKey hc hs
      cases outcome <;> exact ⟨more, hmore, hfollows⟩
  | reload handle addNew =>
    simp only [Session.step]
    cases hs : s.update handle (·.reload addNew) with
    | none => exact ⟨history, List.prefix_rfl, h⟩
    | some result =>
      obtain ⟨outcome, s'⟩ := result
      obtain ⟨more, -, -, hmore, hfollows, -⟩ := h.reload hc hs
      cases outcome <;> exact ⟨more, hmore, hfollows⟩
  | clone handle copy =>
    refine ⟨history, List.prefix_rfl, ?_⟩
    simp only [Session.step, Session.clone, Option.bind_eq_bind, Option.pure_def]
    cases s.number? handle with
    | none => exact h
    | some n => exact h.close _
  | drop handle => exact ⟨history, List.prefix_rfl, h.close _⟩

theorem stepAt {op : Operation} (h : Follows place history now s) (ht : now.toInt ≤ t.toInt)
    (hop : op.At place) : ∃ more, history <+: more ∧ Follows place more t (s.stepAt t op).2 :=
  (h.atTime ht).step (isSteady_atTime s t) hop

/-- A run goes on with the history, by induction on its length. -/
theorem runAt {schedule : Schedule} (h : Follows place history now s)
    (hs : schedule.Timed place now) : ∃ more, history <+: more ∧
      Follows place more (schedule.last now) (s.runAt schedule) := by
  induction schedule generalizing history now s with
  | nil => exact ⟨history, List.prefix_rfl, h⟩
  | cons x schedule ih =>
    obtain ⟨t, op⟩ := x
    obtain ⟨ht, hop, hrest⟩ := hs
    obtain ⟨more, hmore, hstep⟩ := h.stepAt ht hop
    obtain ⟨last, hlast, hrun⟩ := ih hstep hrest
    exact ⟨last, hmore.trans hlast, hrun⟩

end Follows

/-! ### Runs from the start -/

/-- A session with no keyring, on a machine whose files nobody else changes and all stand in
directories, where the file of the place is missing or was left by a reload before. -/
structure Start (place : Place) (since : Instant) (s : Session) : Prop where
  nonneg : 0 ≤ since.toInt
  rings_eq : s.rings = []
  undisturbed : s.machine.Undisturbed
  grounded : s.machine.files.Grounded
  file : (∃ e, s.machine.files.entryAt s.machine.cwd place.file = .error e) ∨
    ∃ bytes, s.machine.files.read s.machine.cwd place.file = .ok bytes ∧ SavedBefore bytes since

section Start

variable {place : Place} {since : Instant} {s : Session}

theorem Start.contents (h : Start place since s) : ∃ history, Timely history since ∧
    ∀ t, Keyring.saved s.machine.files s.machine.cwd place.file t = kept history t := by
  rcases h.file with ⟨e, he⟩ | ⟨bytes, hread, hsaved⟩
  · have hnone : s.machine.files.contents s.machine.cwd place.file = [] := by
      rw [FileTree.contents, FileTree.read, he]
      rfl
    refine ⟨[], fun k hk => by simp at hk, fun t => ?_⟩
    rw [Keyring.saved, hnone, KeyFile.parse_nil]
    rfl
  · obtain ⟨history, htimely, hparse⟩ := hsaved.timely
    refine ⟨history, htimely, fun t => ?_⟩
    rw [Keyring.saved, FileTree.contents, hread]
    exact hparse t

theorem Start.follows (h : Start place since s) : ∃ history, Follows place history since s := by
  obtain ⟨history, htimely, hsaved⟩ := h.contents
  refine ⟨history, h.nonneg, ⟨h.undisturbed, htimely, fun t _ => hsaved t, fun hv u hu => ?_⟩,
    fun x hx => ?_⟩
  · have hname := (Keyring.isOf_inDirectory hv place.directory LockPolicy.standard).isName
    obtain ⟨hbefore, hafter⟩ := FileTree.contents_makeDirectory h.grounded hname hu
    rw [Place.file, hbefore, hafter]
  · rw [h.rings_eq] at hx
    contradiction

/-- A key that was handed out is the first recent one of the history at that time. -/
theorem Start.handed_out (h : Start place since s) {before : Schedule} {t : Instant}
    {handle : String} {id : Int32} {s₁ : Session}
    (htimed : Schedule.Timed place since (before ++ [(t, .bestKey handle)]))
    (hfirst : (s.runAt before).stepAt t (.bestKey handle) = (.key id, s₁)) :
    ∃ history ring k, Follows place history t s₁ ∧ s₁.ring? handle = some ring ∧
      ring.key? id = some k ∧ k.id = id ∧ k ∈ history ∧ findRecent history t = some k := by
  obtain ⟨first, hstart⟩ := h.follows
  obtain ⟨hbefore, ht, -, -⟩ := Schedule.timed_append.mp htimed
  obtain ⟨more, -, hrun⟩ := hstart.runAt hbefore
  obtain ⟨history, _, ring, -, hfollows, -, hring, hkey⟩ :=
    (hrun.atTime ht).bestKey (Follows.isSteady_atTime _ t) (Session.update_of_key hfirst)
  obtain ⟨⟨k, hk, rfl⟩, -⟩ := hkey id rfl
  have hloaded := hfollows.loaded hring
  have hmem := List.mem_of_find?_eq_some hk
  have hhistory := hloaded.findRecent_eq_some (Int.le_refl _) hk
  exact ⟨history, ring, k, hfollows, hring, hloaded.storable.findId_eq_some hmem, rfl,
    List.mem_of_find?_eq_some hhistory, hhistory⟩

/-- As long as a key is recent that was handed out, no handle gets another one, whatever it has
loaded; and a handle that has the key loaded gets it without a change to a file or a draw. -/
theorem bestKey_agrees (h : Start place since s) {before : Schedule} {t : Instant}
    {handle : String} {id : Int32} {s₁ : Session}
    (htimed : Schedule.Timed place since (before ++ [(t, .bestKey handle)]))
    (hfirst : (s.runAt before).stepAt t (.bestKey handle) = (.key id, s₁)) :
    ∃ ring k, s₁.ring? handle = some ring ∧ ring.key? id = some k ∧
      ∀ (between : Schedule) (t' : Instant) (other : String),
        Schedule.Timed place t (between ++ [(t', .bestKey other)]) → k.isRecent t' = true →
        (∀ id' s₂, (s₁.runAt between).stepAt t' (.bestKey other) = (.key id', s₂) → id' = id) ∧
        ∀ ring', (s₁.runAt between).ring? other = some ring' → k ∈ ring'.keys →
          ∃ s₂, (s₁.runAt between).stepAt t' (.bestKey other) = (.key id, s₂) ∧
            s₂.machine.files = (s₁.runAt between).machine.files ∧
            s₂.machine.draws = (s₁.runAt between).machine.draws := by
  obtain ⟨history, ring, k, hfollows, hring, hkey, rfl, -, hk⟩ := h.handed_out htimed hfirst
  refine ⟨ring, k, hring, hkey, fun between t' other htimed' hrecent => ?_⟩
  obtain ⟨hbetween, ht', -, -⟩ := Schedule.timed_append.mp htimed'
  obtain ⟨more, hmore, hrun⟩ := hfollows.runAt hbetween
  have hsteady := Follows.isSteady_atTime (s₁.runAt between) t'
  have hle : t.toInt ≤ t'.toInt := Int.le_trans (Schedule.le_last hbetween) ht'
  have hlater := findRecent_later hle hk hrecent
  have hthen := hrun.atTime ht'
  constructor
  · intro id' s₂ hsecond
    obtain ⟨last, _, ring', hlast, hfollows', -, hring', hkey'⟩ :=
      hthen.bestKey hsteady (Session.update_of_key hsecond)
    obtain ⟨⟨k', hk', rfl⟩, -⟩ := hkey' id' rfl
    have hsame := (hfollows'.loaded hring').findRecent_eq_some (Int.le_refl _) hk'
    rw [findRecent_of_more (hmore.trans hlast) hlater] at hsame
    cases hsame
    rfl
  · intro ring' hring' hmem
    have hloaded : Loaded place more t' ring' := hthen.loaded hring'
    have hfound : findRecent ring'.keys t' = some k := by
      cases hsome : findRecent ring'.keys t' with
      | none =>
        have := List.find?_eq_none.mp hsome k hmem
        contradiction
      | some k' =>
        have hsame := hloaded.findRecent_eq_some (Int.le_refl _) hsome
        rw [findRecent_of_more hmore hlater] at hsame
        exact hsame.symm
    have hring'' : ((s₁.runAt between).atTime t').ring? other = some ring' := hring'
    obtain ⟨s₂, hstep, hmachine⟩ := Session.step_of_findRecent hring'' hfound
    refine ⟨s₂, hstep, ?_, ?_⟩
    · rw [hmachine]
      rfl
    · rw [hmachine]
      rfl

def samplePlace : Place := ⟨⟨['/', 'h']⟩, ⟨['k']⟩, ['c']⟩

def sampleOpen (handle : String) : Operation :=
  .openFor handle (fun _ => .ok samplePlace.home) { subdir := samplePlace.subdir } none ['c']

/-- A session that can draw two identifiers, before there is a directory of keyrings. -/
def sampleSession : Session where
  machine := { Keyring.sampleMachine [([['h']], .directory 0o755)] id with
    random := {
      script := [{ outcome := .ok [5, 0, 0, 0] }, { outcome := .ok [1] },
        { outcome := .ok [6, 0, 0, 0] }]
      after := { outcome := .ok [1] } } }

/-- Two keyrings are opened, of which one then makes a key. -/
def sampleBefore : Schedule := [(1000, sampleOpen "a"), (1000, sampleOpen "b")]

def sampleAfter : Session := ((sampleSession.runAt sampleBefore).stepAt 1000 (.bestKey "a")).2

theorem sampleAfter_eq : (sampleSession.runAt sampleBefore).stepAt 1000 (.bestKey "a") =
    (.key 5, sampleAfter) := Prod.ext rfl rfl

theorem sampleAfter_key : (sampleAfter.ring? "a").bind (·.key? 5) =
    some ⟨5, 1000, List.replicate 24 1⟩ := by
  decide +kernel

theorem sampleBefore_timed : Schedule.Timed samplePlace 1000
    (sampleBefore ++ [(1000, .bestKey "a")]) := by
  simp [sampleBefore, Schedule.Timed, sampleOpen, Operation.At, samplePlace]

theorem start_sample : Start samplePlace 1000 sampleSession where
  nonneg := by decide
  rings_eq := rfl
  undisturbed := ⟨fun _ _ => rfl, by simp [sampleSession], fun _ => rfl⟩
  grounded := by
    apply FileTree.grounded_of_entries
    intro x hx
    rw [List.mem_singleton.mp hx]
    exact ⟨_, rfl⟩
  file := Or.inl ⟨.notFound, rfl⟩

/-- The keyring that was opened before the key was made has to read the file; one that is opened
after it has the key. -/
theorem bestKey_agrees_sample :
    (∀ id s₂, sampleAfter.stepAt 1200 (.bestKey "b") = (.key id, s₂) → id = 5) ∧
    ∃ s₂, (sampleAfter.runAt [(1100, sampleOpen "c")]).stepAt 1200 (.bestKey "c") = (.key 5, s₂) ∧
      s₂.machine.files = (sampleAfter.runAt [(1100, sampleOpen "c")]).machine.files ∧
      s₂.machine.draws = (sampleAfter.runAt [(1100, sampleOpen "c")]).machine.draws := by
  obtain ⟨ring, k, hring, hkey, hagree⟩ :=
    bestKey_agrees start_sample sampleBefore_timed sampleAfter_eq
  have hk := sampleAfter_key
  rw [hring, Option.bind_some, hkey] at hk
  cases hk
  have hrecent : Key.isRecent ⟨5, 1000, List.replicate 24 1⟩ 1200 = true := by decide
  constructor
  · exact (hagree [] 1200 "b" ⟨by decide, trivial, trivial⟩ hrecent).1
  · refine (hagree [(1100, sampleOpen "c")] 1200 "c" ?_ hrecent).2 _ rfl (by decide +kernel)
    exact ⟨by decide, ⟨rfl, rfl, rfl⟩, by decide, trivial, trivial⟩

/-- Whoever reads the file before a key that was handed out expires for good finds it, whole and
once. -/
theorem handed_out_is_loaded (h : Start place since s) {before : Schedule} {t : Instant}
    {handle : String} {id : Int32} {s₁ : Session}
    (htimed : Schedule.Timed place since (before ++ [(t, .bestKey handle)]))
    (hfirst : (s.runAt before).stepAt t (.bestKey handle) = (.key id, s₁)) :
    ∃ ring k, s₁.ring? handle = some ring ∧ ring.key? id = some k ∧
      ∀ (between : Schedule) (t' : Instant) (op : Operation),
        Schedule.Timed place t (between ++ [(t', op)]) →
        t'.toInt ≤ t.toInt + (keptFor - recentFor) →
        match op with
        | .openFor other _ _ _ _ => ∃ s₂ ring', (s₁.runAt between).stepAt t' op = (.done, s₂) ∧
            s₂.ring? other = some ring' ∧ ring'.keys.filter (·.id == id) = [k]
        | .reload other _ => ∀ s₂, (s₁.runAt between).stepAt t' op = (.done, s₂) →
            ∃ ring', s₂.ring? other = some ring' ∧ ring'.keys.filter (·.id == id) = [k]
        | .bestKey other => ∀ ring₀ id' s₂, (s₁.runAt between).ring? other = some ring₀ →
            findRecent ring₀.keys t' = none →
            (s₁.runAt between).stepAt t' op = (.key id', s₂) →
            ∃ ring', s₂.ring? other = some ring' ∧ ring'.keys.filter (·.id == id) = [k]
        | .clone .. | .drop _ => True := by
  obtain ⟨history, ring, k, hfollows, hring, hkey, rfl, hmem, hk⟩ := h.handed_out htimed hfirst
  refine ⟨ring, k, hring, hkey, fun between t' op htimed' hsoon => ?_⟩
  obtain ⟨hbetween, ht', hop, -⟩ := Schedule.timed_append.mp htimed'
  obtain ⟨more, hmore, hrun⟩ := hfollows.runAt hbetween
  have hsteady := Follows.isSteady_atTime (s₁.runAt between) t'
  have hthen := hrun.atTime ht'
  have hle : t.toInt ≤ t'.toInt := Int.le_trans (Schedule.le_last hbetween) ht'
  have hmore' : k ∈ more := hmore.subset hmem
  -- The windows alone keep the key: it was recent at `t`, and `t'` is soon enough after that.
  have hlife : k.isWithinLifetime t' = true := by
    have hcreated := hfollows.holds.timely k hmem
    exact Key.isWithinLifetime_of_isRecent (isRecent_of_findRecent hk) hcreated.1 (by omega) hsoon
  cases op with
  | openFor other resolver options user context =>
    obtain ⟨hhome, hsubdir, rfl⟩ := hop
    have hv : Context.isValid place.context = true := (hfollows.loaded hring).isOf.valid
    obtain ⟨s₂, ring', hopen, hfollows', hring', hkeys⟩ :=
      Follows.openFor other hthen hsteady hhome hsubdir hv
    refine ⟨s₂, ring', ?_, hring', hfollows'.filter_id_eq hring' hkeys hmore' hlife⟩
    simp only [Session.stepAt, Session.step, hopen]
  | reload other addNew =>
    intro s₂ hsecond
    obtain ⟨last, _, ring', hlast, hfollows', -, hring', hkeys⟩ :=
      hthen.reload hsteady (Session.update_of_done hsecond)
    have hin : k ∈ last := hlast.subset hmore'
    exact ⟨ring', hring', hfollows'.filter_id_eq hring' (hkeys rfl) hin hlife⟩
  | bestKey other =>
    intro ring₀ id' s₂ hring₀ hnone hsecond
    obtain ⟨last, ring₁, ring', hlast, hfollows', hring₁, hring', hkey'⟩ :=
      hthen.bestKey hsteady (Session.update_of_key hsecond)
    have hring₀' : ((s₁.runAt between).atTime t').ring? other = some ring₀ := hring₀
    rw [hring₀'] at hring₁
    cases hring₁
    have hin : k ∈ last := hlast.subset hmore'
    have hkeys := (hkey' id' rfl).2 hnone
    exact ⟨ring', hring', hfollows'.filter_id_eq hring' hkeys hin hlife⟩
  | clone handle copy => trivial
  | drop handle => trivial

/-- The key is read from the file two minutes later. -/
theorem handed_out_is_loaded_sample : ∃ s₂ ring, sampleAfter.stepAt 1120 (sampleOpen "c") =
    (.done, s₂) ∧ s₂.ring? "c" = some ring ∧
      ring.keys.filter (·.id == 5) = [⟨5, 1000, List.replicate 24 1⟩] := by
  obtain ⟨ring, k, hring, hkey, hloaded⟩ :=
    handed_out_is_loaded start_sample sampleBefore_timed sampleAfter_eq
  have hk := sampleAfter_key
  rw [hring, Option.bind_some, hkey] at hk
  cases hk
  exact hloaded [] 1120 (sampleOpen "c") ⟨by decide, ⟨rfl, rfl, rfl⟩, trivial⟩ (by decide)

end Start

end Keyrings
