import Keyrings.Proofs.Confinement
import Keyrings.Proofs.Loads
import Keyrings.Proofs.Waiting

/-! What a search for a key supplies. A renewal makes its key at the time that it looked at before
it waited for the lock, and the search looks at the clock once more after that. So it finds a key
unless the two looks are five minutes apart, whatever the file held and however the wait went. A
renewal sleeps no longer than its policy allows. A clock that moves by these sleeps alone may still
show one second more than they take, since it counts parts of a second and shows none. So it never
gets five minutes ahead if the longest wait is shorter by a second, but a wait that is shorter by
less can be enough. -/

namespace Keyrings

/-! ### Time that is slept -/

/-- The time of a clock in nanoseconds, with the part of a second that it does not show. -/
def Clock.nanos (c : Clock) : Int := c.now.toInt * Duration.perSecond + c.part

namespace Machine

def timeSlept (m : Machine) : Nat := m.sleeps.foldr (fun time n => time.nanos + n) 0

/-- From one machine to another no more time has passed than the sleeps in between. -/
def Paced (m m' : Machine) : Prop :=
  m'.clock.nanos - m.clock.nanos ≤ (m'.timeSlept : Int) - m.timeSlept

variable {m m' m'' : Machine}

theorem Paced.refl (m : Machine) : m.Paced m := by
  unfold Paced
  omega

theorem Paced.trans (h : m.Paced m') (h' : m'.Paced m'') : m.Paced m'' := by
  unfold Paced at *
  omega

/-- A machine with the time and the sleeps of another. -/
theorem Paced.of_eq (hnanos : m'.clock.nanos = m.clock.nanos) (hsleeps : m'.sleeps = m.sleeps) :
    m.Paced m' := by
  unfold Paced timeSlept
  rw [hnanos, hsleeps]
  omega

theorem timeSlept_of_replicate {n : Nat} {time : Duration}
    (h : m'.sleeps = List.replicate n time ++ m.sleeps) :
    m'.timeSlept = n * time.nanos + m.timeSlept := by
  unfold timeSlept
  rw [h]
  clear h
  induction n with
  | zero => simp
  | succ n ih =>
    rw [List.replicate_succ, List.cons_append, List.foldr_cons, ih, Nat.succ_mul]
    omega

end Machine

/-- A clock that moves while a machine sleeps, if at all. -/
def Clock.IsIdle (c : Clock) : Prop := ∀ n, c.drift n = 0

/-- An instant that is set ahead is at most that far ahead; it may wrap around. -/
theorem Clock.toInt_advance_le (c : Clock) (n : Nat) :
    (c.advance (Int64.ofNat n)).now.toInt ≤ c.now.toInt + n := by
  have hlo := c.now.le_toInt
  have hsum : (c.advance (Int64.ofNat n)).now.toInt = (c.now.toInt + n).bmod Int64.size := by
    rw [advance, Int64.toInt_add, Int64.toInt_ofNat', Int64.size, Int.add_bmod_bmod]
  rw [hsum, Int64.size, Int.bmod_def]
  split <;> omega

/-- What is shown and what is kept make up the time that has passed. -/
theorem Clock.nanos_pass_le (c : Clock) (n : Nat) : (c.pass n).nanos ≤ c.nanos + n := by
  have hshown := c.toInt_advance_le ((c.part + n) / Duration.perSecond)
  have hsum : (c.part + n) / Duration.perSecond * Duration.perSecond +
      (c.part + n) % Duration.perSecond = c.part + n := Nat.div_add_mod' _ _
  simp only [nanos, pass]
  unfold Duration.perSecond at *
  omega

/-- A clock counts no more of a sleep than there is. -/
theorem Clock.nanos_sleep_le (c : Clock) (time : Duration) :
    (c.sleep time).nanos ≤ c.nanos + time.nanos := by
  have hseconds : time.seconds * Duration.perSecond ≤ time.nanos := Nat.div_mul_le_self ..
  unfold sleep
  split_ifs
  · exact c.nanos_pass_le time.nanos
  · have hpass := c.nanos_pass_le (time.seconds * Duration.perSecond)
    omega
  · omega

theorem Machine.paced_answer {m : Machine} (h : m.clock.IsIdle) (r : Request) :
    m.Paced (m.answer r).2 ∧ (m.answer r).2.clock.IsIdle := by
  have hchange : ∀ outcome, m.Paced (m.change outcome).2 ∧ (m.change outcome).2.clock.IsIdle := by
    intro outcome
    cases outcome <;> exact ⟨.of_eq rfl rfl, h⟩
  cases r with
  | now =>
    have hstill : m.clock.look.2.nanos = m.clock.nanos := by
      simp [Clock.nanos, Clock.look, h m.clock.looks]
    exact ⟨.of_eq hstill rfl, h⟩
  | sleep time =>
    have hle := m.clock.nanos_sleep_le time
    have hslept : (m.answer (.sleep time)).2.timeSlept = time.nanos + m.timeSlept := rfl
    constructor
    · unfold Paced
      rw [hslept]
      simp only [Machine.answer]
      omega
    · simp only [Machine.answer, Clock.sleep]
      split <;> exact h
  | draw count => exact ⟨.of_eq rfl rfl, h⟩
  | uuid => exact ⟨.of_eq rfl rfl, h⟩
  | read path => exact ⟨.refl m, h⟩
  | store path bytes => exact ⟨.of_eq rfl rfl, h⟩
  | create path mode => exact hchange _
  | rename source target => exact hchange _
  | remove path => exact hchange _
  | makeDirectory path mode => exact hchange _

/-- A clock that moves by sleeps alone moves no further than the sleeps of a run. -/
theorem Clock.IsIdle.paced {α : Type} {m : Machine} (h : m.clock.IsIdle) (t : Routine α) :
    m.Paced (t.run m).2 := by
  induction t generalizing m with
  | done a => exact .refl m
  | ask r next ih =>
    obtain ⟨hpaced, hidle⟩ := Machine.paced_answer h r
    exact hpaced.trans (ih _ hidle)

/-! ### Sleeps of a renewal -/

/-- A request that lets no time pass. -/
def Request.IsAwake (r : Request) : Prop := ∀ time, r ≠ .sleep time

theorem Machine.sleeps_answer (m : Machine) {r : Request} (h : r.IsAwake) :
    (m.answer r).2.sleeps = m.sleeps := by
  cases r with
  | sleep time => exact absurd rfl (h time)
  | create path mode => exact m.change_sleeps _
  | rename source target => exact m.change_sleeps _
  | remove path => exact m.change_sleeps _
  | makeDirectory path mode => exact m.change_sleeps _
  | now | draw | uuid | read | store => rfl

theorem Routine.Asks.sleeps_eq {α : Type} {t : Routine α} (h : t.Asks Request.IsAwake)
    (m : Machine) : (t.run m).2.sleeps = m.sleeps := by
  induction t generalizing m with
  | done a => rfl
  | ask r next ih => exact (ih _ (h.2 _) _).trans (m.sleeps_answer h.1)

namespace Keyring

/-- Once the lock is taken nothing sleeps. -/
theorem extendFile_awake (file : Path) (now : Instant) :
    (extendFile file now).Asks Request.IsAwake := by
  have hreplace : ∀ bytes, (replace file bytes).Asks Request.IsAwake := by
    refine replace_asks ?_ ?_ ?_ ?_ ?_ <;> intros <;> simp [Request.IsAwake]
  exact extendFile_asks (by simp [Request.IsAwake]) (by simp [Request.IsAwake]) hreplace now

/-- A renewal sleeps as its lock does. -/
theorem renew_sleeps (ring : Keyring) (m : Machine) :
    ∃ n ≤ ring.policy.maxTimeouts, (ring.renew.run m).2.sleeps =
      List.replicate n ring.policy.timeout ++ m.sleeps := by
  obtain ⟨n, hn, hsleeps⟩ := Lock.acquire_sleeps ring.marker ring.policy (m.answer .now).2
  have hend : ∀ locked m' outcome lock,
      (extendFile ring.file m.clock.now).run locked = (outcome, m') →
      (Lock.release lock |>.run m').2.sleeps = locked.sleeps := by
    intro locked m' outcome lock hext
    have hsame := (extendFile_awake ring.file m.clock.now).sleeps_eq locked
    rw [hext] at hsame
    rw [Lock.release_run, Machine.change_sleeps, hsame]
  refine ⟨n, hn, ?_⟩
  have hren := renew_run ring m
  generalize ring.renew.run m = r at hren ⊢
  cases hren with
  | refused hlock =>
    rw [hlock] at hsleeps
    exact hsleeps
  | failed hlock hext =>
    rw [hlock] at hsleeps
    exact (hend _ _ _ _ hext).trans hsleeps
  | added hlock hext =>
    rw [hlock] at hsleeps
    exact (hend _ _ _ _ hext).trans hsleeps

/-- A clock that moves by sleeps alone shows less than five minutes if the longest wait, together
with the part of a second that has passed before, is shorter. -/
theorem seconds_lt_of_isIdle {ring : Keyring} {m : Machine} {longest : Duration}
    (hidle : m.clock.IsIdle) (hwait : ring.policy.worstCaseWait? = some longest)
    (hshort : m.clock.part + longest.nanos < 300 * Duration.perSecond) :
    (ring.renew.run m).2.clock.now.toInt - m.clock.now.toInt < recentFor := by
  obtain ⟨n, hn, hsleeps⟩ := renew_sleeps ring m
  have hslept := Machine.timeSlept_of_replicate hsleeps
  have hlongest : n * ring.policy.timeout.nanos ≤ longest.nanos := by
    rw [LockPolicy.nanos_of_worstCaseWait? hwait]
    exact Nat.mul_le_mul_right _ hn
  have hpaced := hidle.paced ring.renew
  unfold Machine.Paced Clock.nanos at hpaced
  unfold Duration.perSecond at *
  unfold recentFor
  omega

end Keyring

/-! ### Faults of a renewal -/

/-- A source of random bytes has a draw that fails with a fault. -/
def Randomness.Gives (r : Randomness) (fault : Fault) : Prop :=
  (∃ d ∈ r.script, d.outcome = .error fault) ∨ r.after.outcome = .error fault

theorem Randomness.Gives.of_next {r : Randomness} {fault : Fault} (h : r.next.2.Gives fault) :
    r.Gives fault := by
  unfold next at h
  cases hs : r.script with
  | nil =>
    rw [hs] at h
    exact h
  | cons d rest =>
    rw [hs] at h
    rcases h with ⟨d', hd', hfault⟩ | hfault
    · exact Or.inl ⟨d', by rw [hs]; exact List.mem_cons_of_mem d hd', hfault⟩
    · exact Or.inr hfault

/-- A draw that fails does so with the fault of the source. -/
theorem Randomness.gives_of_block {r : Randomness} {count : Nat} {fault : Fault}
    (h : r.next.1.block count = .error fault) : r.Gives fault := by
  have houtcome : r.next.1.outcome = .error fault := by
    unfold Draw.block at h
    cases hd : r.next.1.outcome with
    | ok bytes =>
      rw [hd] at h
      cases h
    | error e =>
      rw [hd] at h
      cases h
      rfl
  unfold next at houtcome
  cases hs : r.script with
  | nil =>
    rw [hs] at houtcome
    exact Or.inr houtcome
  | cons d rest =>
    rw [hs] at houtcome
    exact Or.inl ⟨d, by rw [hs]; exact List.mem_cons_self .., houtcome⟩

/-- An identifier is not found for want of a free one, or through a fault of the source. -/
theorem drawId_fault (existing : List Key) (n : Nat) (m : Machine) :
    (∀ fault, ((drawId existing n).run m).2.random.Gives fault → m.random.Gives fault) ∧
    ∀ fault, ((drawId existing n).run m).1 = .error fault →
      fault = .failed (.noFreeId maxIdAttempts) ∨ m.random.Gives fault := by
  induction n generalizing m with
  | zero =>
    refine ⟨fun fault h => h, fun fault h => ?_⟩
    cases h
    exact Or.inl rfl
  | succ n ih =>
    have hnext : ∀ fault, (m.answer (.draw idLength)).2.random.Gives fault →
        m.random.Gives fault := fun _ h => h.of_next
    simp only [drawId, Routine.request, Routine.bind_eq, Routine.ask_bind, Routine.done_bind,
      Routine.run_ask]
    cases hd : (m.answer (.draw idLength)).1 with
    | error e =>
      refine ⟨hnext, fun fault h => ?_⟩
      cases h
      exact Or.inr (Randomness.gives_of_block hd)
    | ok block =>
      simp only
      cases usableId? existing block.bytes with
      | some id => exact ⟨hnext, fun fault h => by cases h⟩
      | none =>
        obtain ⟨hgives, hfault⟩ := ih (m.answer (.draw idLength)).2
        exact ⟨fun fault h => hnext fault (hgives fault h),
          fun fault h => (hfault fault h).imp id (hnext fault)⟩

theorem freshKey_fault {existing : List Key} {now : Instant} {m : Machine} {fault : Fault}
    (h : ((freshKey existing now).run m).1 = .error fault) :
    fault = .failed (.noFreeId maxIdAttempts) ∨ m.random.Gives fault := by
  obtain ⟨hgives, hfault⟩ := drawId_fault existing maxIdAttempts m
  simp only [freshKey, Routine.bind_eq, Routine.run_bind] at h
  generalize (drawId existing maxIdAttempts).run m = r at h hgives hfault
  obtain ⟨outcome, drawn⟩ := r
  cases outcome with
  | error e =>
    cases h
    exact hfault fault rfl
  | ok id =>
    simp only [Routine.request, Routine.ask_bind, Routine.done_bind, Routine.run_ask] at h
    cases hd : (drawn.answer (.draw secretLength)).1 with
    | error e =>
      rw [hd] at h
      cases h
      exact Or.inr (hgives fault (Randomness.gives_of_block hd))
    | ok secret =>
      rw [hd] at h
      cases h

namespace Keyring

theorem extendFile_fault {file : Path} {now : Instant} {m : Machine} {fault : Fault}
    (h : ((extendFile file now).run m).1 = .error fault) : (∃ e, fault = .file e) ∨
      fault = .failed (.noFreeId maxIdAttempts) ∨ m.random.Gives fault := by
  simp only [extendFile, Routine.bind_eq, Routine.run_bind, load_run] at h
  cases hr : (freshKey (saved m.files m.cwd file now) now).run m with
  | mk outcome drawn =>
    rw [hr] at h
    cases outcome with
    | error e =>
      cases h
      exact Or.inr (freshKey_fault (congrArg Prod.fst hr))
    | ok key =>
      simp only [Routine.run_bind] at h
      generalize (replace file _).run drawn = replaced at h
      obtain ⟨outcome, m'⟩ := replaced
      cases outcome with
      | error e =>
        cases h
        exact Or.inl ⟨e, rfl⟩
      | ok _ => cases h

/-- Why a renewal fails: its lock is not taken, the file cannot be replaced, no identifier is free,
or the source of random bytes has failed. -/
theorem Proper.renew_fault {ring ring' : Keyring} (h : ring.Proper) {m m' : Machine}
    {fault : Fault} (hren : ring.renew.run m = ((.error fault, ring'), m')) :
    (∃ reason, fault = .failed (.notLocked reason)) ∨ (∃ e, fault = .file e) ∨
      fault = .failed (.noFreeId maxIdAttempts) ∨ m.random.Gives fault := by
  obtain ⟨directory, context, hof⟩ := h
  obtain ⟨hwaited, t, -, htaken⟩ := Lock.attempt_run hof.marker_endsInSeparator
    ring.policy.timeout ring.policy.maxTimeouts (m := (m.answer .now).2) (P := fun _ => True)
    (fun _ _ _ => trivial) trivial
  rw [← Lock.acquire] at hwaited htaken
  have hrenewal := renew_run ring m
  rw [hren] at hrenewal
  cases hrenewal with
  | refused hlock =>
    rw [hlock] at htaken
    cases htaken
    exact Or.inl ⟨_, rfl⟩
  | failed hlock hext =>
    rw [hlock] at hwaited
    have hfault := extendFile_fault (congrArg Prod.fst hext)
    rw [hwaited.random_eq] at hfault
    exact Or.inr hfault

end Keyring

/-! ### Open keyrings -/

namespace Session

variable {s : Session}

theorem Proper.put {n : Nat} {ring : Keyring} (h : s.Proper) (hring : ring.Proper) :
    Session.Proper { s with rings := put s.rings n ring } := by
  intro x hx
  rcases mem_put_iff.mp hx with rfl | ⟨hx, -⟩
  · exact hring
  · exact h x hx

/-- Whatever is answered to a routine that keeps the paths of a keyring, the session keeps them. -/
theorem Proper.use {α : Type} {handle : String}
    {routine : Keyring → Routine (Except Fault α × Keyring)} {answer : α → Outcome} (h : s.Proper)
    (hroutine : ∀ ring : Keyring, ring.Proper →
      (routine ring).Ensures fun _ result => result.2.Proper) :
    (s.use handle routine answer).Ensures fun _ result => result.2.Proper := by
  rcases s.use_cases handle routine answer with huse | ⟨n, ring, -, hring, huse⟩
  · rw [huse]
    exact h
  · rw [huse]
    exact (hroutine ring (h _ (mem_of_lookup hring))).bind fun _ _ hresult => h.put hresult

/-- Open keyrings keep their paths, whatever is done and whatever is answered. -/
theorem Proper.plan (h : s.Proper) (op : Operation) :
    (s.plan op).Ensures fun _ result => result.2.Proper := by
  cases op with
  | openFor handle resolver options user context =>
    refine Routine.Ensures.bind (P := fun _ result => ∀ ring, result = .ok ring → ring.Proper) ?_
      fun _ result hopen => ?_
    · cases hhome : resolver user with
      | error fault =>
        rw [Keyring.openFor, hhome]
        exact fun ring hring => by cases hring
      | ok home =>
        let place : Place := ⟨home, options.subdir, context⟩
        have hplace : resolver user = .ok place.home := hhome
        have hsubdir : options.subdir = place.subdir := rfl
        exact (Keyring.openFor_isOf hplace hsubdir).mono fun _ _ hisOf ring hring =>
          ⟨place.directory, context, hisOf ring hring⟩
    · cases result with
      | error fault => exact h
      | ok ring => exact Proper.close (h.put (hopen ring rfl))
  | bestKey handle =>
    refine h.use fun ring hring => ring.bestKey_ensures.mono fun _ result hsearch => ?_
    cases hsearch with
    | loaded | failed => exact hring
    | found | missed => exact hring.with_keys _
  | reload handle addNew =>
    refine h.use fun ring hring => (ring.reload_ensures addNew).mono fun _ result hreload => ?_
    obtain ⟨-, -, ⟨fault, rfl⟩ | ⟨keys, -, rfl⟩⟩ := hreload
    · exact hring
    · exact hring.with_keys keys
  | clone handle copy => exact h.step (.clone handle copy)
  | drop handle => exact h.step (.drop handle)

end Session

theorem Observed.proper_run {o : Observed} (h : o.session.Proper) (xs : List Occasion) :
    (o.run xs).session.Proper := by
  induction xs generalizing o with
  | nil => exact h
  | cons x xs ih => exact ih ((h.plan x.2).amid x.1 o.session.machine)

/-! ### Searches -/

namespace Keyring

/-- A key that a keyring offers under an identifier at a time: it is loaded, it is recent, and its
secret is shown. -/
structure Offers (ring : Keyring) (now : Instant) (id : Int32) (k : Key) : Prop where
  loaded : k ∈ ring.keys
  id_eq : k.id = id
  recent : k.isRecent now = true
  hexKey_eq : ring.hexKey? id = some k.hexSecret
  decode_hexSecret : Hex.decode k.hexSecret = some k.secret
  hexSecret_ne_nil : k.hexSecret ≠ []

theorem offers_of_findRecent {ring : Keyring} {now : Instant} {k : Key} (h : Storable ring.keys)
    (hk : findRecent ring.keys now = some k) : ring.Offers now k.id k := by
  have hmem := List.mem_of_find?_eq_some hk
  refine ⟨hmem, rfl, isRecent_of_findRecent hk, ?_, Hex.decode_encode k.secret,
    Hex.encode_ne_nil (h.secret_ne_nil k hmem)⟩
  rw [hexKey?, key?, h.findId_eq_some hmem, Option.map_some]

/-- How a search ends that supplies a key if it can: with a loaded key, with the fault of its
renewal, which is not that no key was found unless the source of random bytes says so, or with a
key from the file that its renewal has written. -/
inductive Supplies (ring : Keyring) (m : Machine) :
    (Except Fault Int32 × Keyring) × Machine → Prop
  | loaded {id : Int32} {k : Key} (hoffer : ring.Offers m.clock.now id k) :
      Supplies ring m ((.ok id, ring), (m.answer .now).2)
  | failed {fault : Fault} {m' : Machine}
      (hren : ring.renew.run (m.answer .now).2 = ((.error fault, ring), m'))
      (hfault : fault = .failed .noRecentKey → m.random.Gives fault) :
      Supplies ring m ((.error fault, ring), m')
  | saved {id : Int32} {k : Key} {ring' : Keyring} {m' : Machine}
      (hren : ring.renew.run (m.answer .now).2 = ((.ok (), ring'), m'))
      (hoffer : ring'.Offers m'.clock.now id k)
      (hread : m'.files.read m'.cwd ring.file = .ok (KeyFile.serialize ring'.keys)) :
      Supplies ring m ((.ok id, ring'), (m'.answer .now).2)

/-- A search that supplies a key if it can fails only where its renewal does. -/
theorem Supplies.renew_error {ring : Keyring} {m : Machine}
    {r : (Except Fault Int32 × Keyring) × Machine} (h : ring.Supplies m r) {fault : Fault}
    (hr : r.1.1 = .error fault) : (ring.renew.run (m.answer .now).2).1.1 = .error fault := by
  cases h with
  | loaded => cases hr
  | saved => cases hr
  | failed hren =>
    cases hr
    rw [hren]

/-- The key that a renewal has made is recent for five minutes. -/
theorem Appends.findRecent_ne_none {ring ring' : Keyring} {time now : Instant} {old : List Key}
    {key : Key} {m' : Machine} (h : ring.Appends time old key ring' m')
    (hearliest : Instant.earliest < time.toInt) (hsoon : now.toInt - time.toInt < recentFor) :
    findRecent ring'.keys now ≠ none := by
  have hrecent : key.isRecent now = true := by
    rw [Key.isRecent_iff, h.fresh.created_eq]
    omega
  intro hnone
  rw [h.ring_eq] at hnone
  exact List.find?_eq_none.mp hnone key (by simp) hrecent

theorem Proper.supplies {ring : Keyring} (h : ring.Proper) (hs : Storable ring.keys) {m : Machine}
    (hearliest : findRecent ring.keys m.clock.now = none →
      Instant.earliest < (m.answer .now).2.clock.now.toInt)
    (hsoon : findRecent ring.keys m.clock.now = none →
      (ring.renew.run (m.answer .now).2).2.clock.now.toInt - (m.answer .now).2.clock.now.toInt <
        recentFor) :
    ring.Supplies m (ring.bestKey.run m) := by
  have hsearch := bestKey_run ring m
  generalize ring.bestKey.run m = r at hsearch ⊢
  cases hsearch with
  | loaded hk => exact .loaded (offers_of_findRecent hs hk)
  | @failed fault ring' m' hnone hren =>
    have hrenewal := renew_run ring (m.answer .now).2
    rw [hren] at hrenewal
    have hfault : fault = .failed .noRecentKey → m.random.Gives fault := by
      rintro rfl
      rcases h.renew_fault hren with ⟨_, hno⟩ | ⟨_, hno⟩ | hno | hgives
      · cases hno
      · cases hno
      · cases hno
      · exact hgives
    cases hrenewal with
    | refused => exact .failed hren hfault
    | failed => exact .failed hren hfault
  | found hnone hren hk =>
    obtain ⟨old, key, hext⟩ := h.renew_appends hren
    have hkeys := hext.storable.append_fresh hext.fresh
    have hread := hext.read_eq
    have hring := congrArg Keyring.keys hext.ring_eq
    simp only at hring
    rw [← hring] at hkeys hread
    exact .saved hren (offers_of_findRecent hkeys hk) hread
  | missed hnone hren hk =>
    obtain ⟨old, key, hext⟩ := h.renew_appends hren
    have hlate := hsoon hnone
    rw [hren] at hlate
    exact absurd hk (hext.findRecent_ne_none (hearliest hnone) hlate)

end Keyring

/-- A search of any keyring that any session has opened, on any machine, supplies a key or ends in
the fault of its renewal, unless the clock shows five minutes or more between the two looks that
come last. It never does if it moves by sleeps alone and the longest wait takes at most 299
seconds, or less than five minutes together with the part of a second that had passed before. -/
theorem search_supplies (m₀ : Machine) (xs : List Occasion) {handle : String} {ring : Keyring}
    (hring : ((Observed.start m₀).run xs).session.ring? handle = some ring) (m : Machine)
    (hearliest : findRecent ring.keys m.clock.now = none →
      Instant.earliest < (m.answer .now).2.clock.now.toInt) :
    ((findRecent ring.keys m.clock.now = none →
        (ring.renew.run (m.answer .now).2).2.clock.now.toInt - (m.answer .now).2.clock.now.toInt <
          recentFor) →
      ring.Supplies m (ring.bestKey.run m)) ∧
    (m.clock.IsIdle → ∀ longest, ring.policy.worstCaseWait? = some longest →
      longest.nanos ≤ 299 * Duration.perSecond ∨
        m.clock.part + longest.nanos < 300 * Duration.perSecond →
      ring.Supplies m (ring.bestKey.run m)) := by
  obtain ⟨_, -, -, hloaded⟩ := ((Observed.sound_start m₀).run xs).loadedAt hring
  have hopen : ((Observed.start m₀).run xs).session.Proper :=
    Observed.proper_run (fun _ hx => absurd hx List.not_mem_nil) xs
  obtain ⟨n, hn⟩ := Session.mem_of_ring? hring
  have hproper : ring.Proper := hopen _ hn
  refine ⟨hproper.supplies hloaded.storable hearliest, fun hidle longest hwait hshort => ?_⟩
  have hbelow : m.clock.part + longest.nanos < 300 * Duration.perSecond := by
    have hpart := m.clock.part.isLt
    omega
  exact hproper.supplies hloaded.storable hearliest fun _ =>
    Keyring.seconds_lt_of_isIdle (m := (m.answer .now).2) hidle hwait hbelow

/-- A keyring that was opened where there is no key, and that waits once for its lock. -/
def patientRing (time : Duration) : Keyring :=
  Keyring.inDirectory samplePlace.directory ['c'] ⟨1, time⟩

def openPatient (time : Duration) : Operation :=
  .openFor "a" (fun _ => .ok samplePlace.home)
    { subdir := samplePlace.subdir, policy := ⟨1, time⟩ } none ['c']

theorem ring?_patientRing : ∀ time ∈ [Duration.ofMillis 299000, Duration.ofMillis 299750],
    ((Observed.start sampleSession.machine).run
      [(fun _ => id, openPatient time)]).session.ring? "a" = some (patientRing time) := by
  decide +kernel

/-- A marker that nobody removes, and a clock that is half a second past the one it shows. It moves
by the sleeps, and by some seconds after its second look. -/
def heldMachine (seconds : Int64) : Machine where
  files := ⟨[([['h']], .directory 0o755), ([['h'], ['k']], .directory 0o700),
    ([['h'], ['k'], ['c']], .file 0o600 (Text.Plain.bytes "4 500 aa\n".toList)),
    ([['h'], ['k'], "c.lock".toList], .file 0o600 [])]⟩
  clock := { now := 1000, part := ⟨500000000, by decide⟩, countsSleep := true, countsParts := true,
             drift := fun n => if n = 1 then seconds else 0 }
  random := { after := { outcome := .ok [5, 0, 0, 0] } }
  uuids n := ⟨BitVec.ofNat 128 n⟩

theorem isIdle_heldMachine : (heldMachine 0).clock.IsIdle := fun _ => ite_self 0

/-- The sleep takes 299 seconds, or a longer one ends on a clock that was set back. -/
theorem search_supplies_held :
    let ring := patientRing (Duration.ofMillis 299000)
    let slower := patientRing (Duration.ofMillis 299750)
    ((slower.renew.run ((heldMachine (-1)).answer .now).2).2.clock.now = 1299 ∧
      slower.Supplies (heldMachine (-1)) (slower.bestKey.run (heldMachine (-1)))) ∧
    (heldMachine 0).clock.IsIdle ∧ ring.policy.worstCaseWait? = some (Duration.ofMillis 299000) ∧
    (ring.renew.run ((heldMachine 0).answer .now).2).2.clock.now = 1299 ∧
    ring.Supplies (heldMachine 0) (ring.bestKey.run (heldMachine 0)) := by
  intro ring slower
  have hback : (slower.renew.run ((heldMachine (-1)).answer .now).2).2.clock.now = 1299 := by
    decide +kernel
  have hwait : ring.policy.worstCaseWait? = some (Duration.ofMillis 299000) := by decide
  have hlate : (ring.renew.run ((heldMachine 0).answer .now).2).2.clock.now = 1299 := by
    decide +kernel
  refine ⟨⟨hback, ?_⟩, isIdle_heldMachine, hwait, hlate, ?_⟩
  · refine (search_supplies _ _ (ring?_patientRing _ (by simp)) (heldMachine (-1))
      fun _ => by decide).1 fun _ => ?_
    rw [hback]
    decide
  · exact (search_supplies _ _ (ring?_patientRing _ (by simp)) (heldMachine 0)
      fun _ => by decide).2 isIdle_heldMachine _ hwait (Or.inl (by decide))

/-- A wait of three quarters of a second more is still shorter than five minutes but shows as five
minutes. The key that was saved is not found. -/
theorem search_misses_saved :
    let ring := patientRing (Duration.ofMillis 299750)
    ((Observed.start sampleSession.machine).run
      [(fun _ => id, openPatient (Duration.ofMillis 299750))]).session.ring? "a" = some ring ∧
    (heldMachine 0).clock.IsIdle ∧
    ring.policy.worstCaseWait? = some (Duration.ofMillis 299750) ∧
    (Duration.ofMillis 299750).nanos < 300 * Duration.perSecond ∧
    Instant.earliest < ((heldMachine 0).answer .now).2.clock.now.toInt ∧
    (ring.bestKey.run (heldMachine 0)).1.1 = .error (.failed .noRecentKey) ∧
    ¬ ring.Supplies (heldMachine 0) (ring.bestKey.run (heldMachine 0)) ∧
    ∃ key, key.created = 1000 ∧
      (ring.bestKey.run (heldMachine 0)).2.files.read [] ring.file =
        .ok (KeyFile.serialize [key]) := by
  intro ring
  have hmissed : (ring.bestKey.run (heldMachine 0)).1.1 = .error (.failed .noRecentKey) := by
    decide +kernel
  have hrenewed : (ring.renew.run ((heldMachine 0).answer .now).2).1.1 = .ok () := by
    decide +kernel
  refine ⟨ring?_patientRing _ (by simp), isIdle_heldMachine, by decide, by decide, by decide,
    hmissed, ?_, ⟨5, 1000, cycle [5, 0, 0, 0] secretLength⟩, rfl, by decide +kernel⟩
  intro hsupplies
  have hfailed := hsupplies.renew_error hmissed
  rw [hrenewed] at hfailed
  cases hfailed

end Keyrings
