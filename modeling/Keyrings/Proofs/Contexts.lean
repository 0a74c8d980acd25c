import Keyrings.Proofs.Confinement

/-! Contexts side by side in one directory. Whatever is done with the handles of one of them, at any
length and up to any moment, leaves the files of the others as they are. The same session may have
handles of other contexts meanwhile. -/

namespace Keyrings

/-! ### Handles of a place -/

namespace Operation

def handle : Operation → String
  | .openFor handle .. | .bestKey handle | .reload handle _ | .clone handle _ | .drop handle => handle

/-- Whether an operation puts no keyring under some handles that is not of a place. -/
def Respects (place : Place) (mine : String → Prop) : Operation → Prop
  | .openFor handle resolver options user context =>
    mine handle → (Operation.openFor handle resolver options user context).At place
  | .clone handle copy => mine copy → mine handle
  | .bestKey _ | .reload .. | .drop _ => True

end Operation

namespace Session

section Tables

variable {α β : Type} [BEq α] [LawfulBEq α]

/-- A table cut down by names has the same values under those that stay. -/
theorem lookup_filter (keep : α → Bool) (table : List (α × β)) (name : α) :
    (table.filter fun x => keep x.1).lookup name =
      if keep name then table.lookup name else none := by
  induction table with
  | nil => simp
  | cons x table ih =>
    obtain ⟨k, v⟩ := x
    by_cases hk : name = k
    · subst hk
      by_cases hkeep : keep name = true
      · simp [hkeep]
      · simp [hkeep, ih]
    · have hskip : (name == k) = false := by simpa using hk
      by_cases hkeep : keep k = true
      · simp [hkeep, List.lookup_cons, hskip, ih]
      · simp [hkeep, List.lookup_cons, hskip, ih]

theorem lookup_put_self (table : List (α × β)) (name : α) (value : β) :
    (put table name value).lookup name = some value := by
  simp [put]

theorem lookup_put_of_ne (table : List (α × β)) {name other : α} (h : other ≠ name) (value : β) :
    (put table name value).lookup other = table.lookup other := by
  have hskip : (other == name) = false := by simpa using h
  rw [put, List.lookup_cons, hskip]
  simp only [lookup_filter (!· == name), hskip, Bool.not_false, if_true]

end Tables

theorem step_machine (s : Session) (op : Operation) :
    (s.step op).2.machine = ((s.plan op).run s.machine).2 := by
  rw [step_eq_plan]
  rfl

/-- Some handles of a session have keyrings of a place only. The numbers of all handles have been
given to keyrings, so that a new one shows under no old handle. -/
structure IsAt (s : Session) (place : Place) (mine : String → Prop) : Prop where
  given : ∀ x ∈ s.handles, x.2 < s.opened
  isOf : ∀ handle ring, mine handle → s.ring? handle = some ring →
    ring.IsOf place.directory place.context

def steps (s : Session) (ops : List Operation) : Session := ops.foldl (fun s op => (s.step op).2) s

variable {s : Session} {place : Place} {mine : String → Prop} {op : Operation}

/-- Closing shows no new keyrings. -/
theorem ring?_of_close {handle : String} {ring : Keyring} (h : s.close.ring? handle = some ring) :
    s.ring? handle = some ring := by
  obtain ⟨n, hn, hring⟩ := Option.bind_eq_some_iff.mp h
  have hkept : (s.rings.filter fun x => s.handles.any (·.2 == x.1)).lookup n = some ring := hring
  rw [lookup_filter fun n => s.handles.any (·.2 == n)] at hkept
  split_ifs at hkept
  exact Option.bind_eq_some_iff.mpr ⟨n, hn, hkept⟩

namespace IsAt

theorem onMachine (h : s.IsAt place mine) (change : Machine → Machine) :
    (s.onMachine change).IsAt place mine := ⟨h.given, h.isOf⟩

theorem close (h : s.IsAt place mine) : s.close.IsAt place mine :=
  ⟨h.given, fun handle ring hm hring => h.isOf handle ring hm (ring?_of_close hring)⟩

/-- A keyring has other keys. -/
theorem put_keys (h : s.IsAt place mine) {n : Nat} {ring : Keyring}
    (hring : s.rings.lookup n = some ring) (keys : List Key) :
    IsAt { s with rings := put s.rings n { ring with keys := keys } } place mine := by
  refine ⟨h.given, fun handle ring' hm hring' => ?_⟩
  obtain ⟨k, hk, hlookup⟩ := Option.bind_eq_some_iff.mp hring'
  by_cases hkn : k = n
  · subst hkn
    rw [lookup_put_self] at hlookup
    cases hlookup
    exact (h.isOf handle ring hm (Option.bind_eq_some_iff.mpr ⟨k, hk, hring⟩)).with_keys keys
  · rw [lookup_put_of_ne _ hkn] at hlookup
    exact h.isOf handle ring' hm (Option.bind_eq_some_iff.mpr ⟨k, hk, hlookup⟩)

/-- There is one more keyring. -/
theorem adopt (h : s.IsAt place mine) {handle : String} {ring : Keyring}
    (hring : mine handle → ring.IsOf place.directory place.context) :
    (s.adopt handle ring).IsAt place mine := by
  refine IsAt.close ⟨fun x hx => ?_, fun other ring' hm hring' => ?_⟩
  · rcases mem_put hx with rfl | hx
    · exact Nat.lt_succ_self _
    · exact Nat.lt_succ_of_lt (h.given x hx)
  · obtain ⟨n, hn, hlookup⟩ := Option.bind_eq_some_iff.mp hring'
    by_cases hother : other = handle
    · subst hother
      have hnumber : some s.opened = some n := (lookup_put_self ..).symm.trans hn
      cases hnumber
      rw [lookup_put_self] at hlookup
      cases hlookup
      exact hring hm
    · have hold : s.number? other = some n := (lookup_put_of_ne _ hother _).symm.trans hn
      have hne : n ≠ s.opened := Nat.ne_of_lt (h.given _ (mem_of_lookup hold))
      rw [lookup_put_of_ne _ hne] at hlookup
      exact h.isOf other ring' hm (Option.bind_eq_some_iff.mpr ⟨n, hold, hlookup⟩)

theorem clone (h : s.IsAt place mine) {handle copy : String} (hcopy : mine copy → mine handle) :
    (s.step (.clone handle copy)).2.IsAt place mine := by
  simp only [step, Session.clone, Option.bind_eq_bind, Option.pure_def]
  cases hn : s.number? handle with
  | none => exact h
  | some n =>
    refine IsAt.close ⟨fun x hx => ?_, fun other ring hm hring => ?_⟩
    · rcases mem_put hx with rfl | hx
      · exact h.given (handle, n) (mem_of_lookup hn)
      · exact h.given x hx
    · obtain ⟨k, hk, hlookup⟩ := Option.bind_eq_some_iff.mp hring
      by_cases hother : other = copy
      · subst hother
        have hnumber : some n = some k := (lookup_put_self ..).symm.trans hk
        cases hnumber
        exact h.isOf handle ring (hcopy hm) (Option.bind_eq_some_iff.mpr ⟨n, hn, hlookup⟩)
      · have hold : s.number? other = some k := (lookup_put_of_ne _ hother _).symm.trans hk
        exact h.isOf other ring hm (Option.bind_eq_some_iff.mpr ⟨k, hold, hlookup⟩)

theorem drop (h : s.IsAt place mine) (handle : String) :
    (s.step (.drop handle)).2.IsAt place mine := by
  refine IsAt.close ⟨fun x hx => h.given x (List.mem_filter.mp hx).1, fun other ring hm hring => ?_⟩
  obtain ⟨k, hk, hlookup⟩ := Option.bind_eq_some_iff.mp hring
  have hkept : (s.handles.filter fun x => !x.1 == handle).lookup other = some k := hk
  rw [lookup_filter (!· == handle)] at hkept
  split_ifs at hkept
  exact h.isOf other ring hm (Option.bind_eq_some_iff.mpr ⟨k, hkept, hlookup⟩)

theorem use {α : Type} (h : s.IsAt place mine) {handle : String} {answer : α → Outcome}
    {routine : Keyring → Routine (Except Fault α × Keyring)}
    (hroutine : ∀ ring, (routine ring).Ensures fun _ result =>
      ∃ keys, result.2 = { ring with keys := keys }) :
    (s.use handle routine answer).Ensures fun _ result => result.2.IsAt place mine := by
  rcases s.use_cases handle routine answer with huse | ⟨n, ring, -, hring, huse⟩
  · rw [huse]
    exact h
  · rw [huse]
    refine (hroutine ring).bind fun _ result hresult => ?_
    obtain ⟨keys, hkeys⟩ := hresult
    simp only [Routine.Ensures, hkeys]
    exact h.put_keys hring keys

/-- Whatever is answered, the handles keep to their place. -/
theorem plan (h : s.IsAt place mine) (hop : op.Respects place mine) :
    (s.plan op).Ensures fun _ result => result.2.IsAt place mine := by
  cases op with
  | openFor handle resolver options user context =>
    have hopen : (Keyring.openFor resolver options user context).Ensures fun _ result =>
        ∀ ring, result = .ok ring → mine handle → ring.IsOf place.directory place.context := by
      by_cases hm : mine handle
      · obtain ⟨hhome, hsubdir, rfl⟩ := hop hm
        exact (Keyring.openFor_isOf hhome hsubdir).mono fun _ _ hisOf ring hring _ =>
          hisOf ring hring
      · exact .of_forall _ fun _ _ _ _ hm' => absurd hm' hm
    refine hopen.bind fun _ result hring => ?_
    cases result with
    | error fault => exact h
    | ok ring => exact h.adopt (hring ring rfl)
  | bestKey handle =>
    refine h.use fun ring => ring.bestKey_ensures.mono fun _ result hsearch => ?_
    cases hsearch with
    | loaded | failed => exact ⟨ring.keys, rfl⟩
    | found | missed => exact ⟨_, rfl⟩
  | reload handle addNew =>
    refine h.use fun ring => (ring.reload_ensures addNew).mono fun _ result hreload => ?_
    obtain ⟨-, -, ⟨fault, rfl⟩ | ⟨keys, -, rfl⟩⟩ := hreload
    · exact ⟨ring.keys, rfl⟩
    · exact ⟨keys, rfl⟩
  | clone handle copy => exact h.clone hop
  | drop handle => exact h.drop handle

theorem stepAmid (h : s.IsAt place mine) (hop : op.Respects place mine) (others : Others) :
    (s.stepAmid others op).2.IsAt place mine :=
  ((h.plan hop).amid others s.machine).onMachine fun _ => ((s.plan op).amid others s.machine).2

theorem step (h : s.IsAt place mine) (hop : op.Respects place mine) :
    (s.step op).2.IsAt place mine := by
  rw [← s.stepAmid_idle op]
  exact h.stepAmid hop _

/-- The keyring of a handle is one of the place. -/
theorem use_cases {α : Type} (h : s.IsAt place mine) {handle : String} (hm : mine handle)
    (routine : Keyring → Routine (Except Fault α × Keyring)) (answer : α → Outcome) :
    s.use handle routine answer = .done (.noHandle, s) ∨
      ∃ n ring, ring.IsOf place.directory place.context ∧
        s.use handle routine answer = (routine ring).bind fun (result, ring) =>
          .done (outcome answer result, { s with rings := put s.rings n ring }) := by
  rcases s.use_cases handle routine answer with huse | ⟨n, ring, hn, hring, huse⟩
  · exact Or.inl huse
  · exact Or.inr ⟨n, ring,
      h.isOf handle ring hm (Option.bind_eq_some_iff.mpr ⟨n, hn, hring⟩), huse⟩

theorem use_asks {α : Type} (h : s.IsAt place mine) {handle : String} (hm : mine handle)
    {routine : Keyring → Routine (Except Fault α × Keyring)} (answer : α → Outcome)
    (hroutine : ∀ ring : Keyring, ring.IsOf place.directory place.context →
      (routine ring).Asks (Keyring.Asked place.directory place.context)) :
    (s.use handle routine answer).Asks (Keyring.Asked place.directory place.context) := by
  rcases h.use_cases hm routine answer with huse | ⟨n, ring, hof, huse⟩
  · rw [huse]
    trivial
  · rw [huse]
    exact (hroutine ring hof).bind (.of_forall _ fun _ _ => trivial)

/-- An operation with a handle of the place makes no other requests than the keyrings there. -/
theorem plan_asks (h : s.IsAt place mine) (hop : op.Respects place mine) (hm : mine op.handle) :
    (s.plan op).Asks (Keyring.Asked place.directory place.context) := by
  cases op with
  | openFor handle resolver options user context =>
    obtain ⟨hhome, hsubdir, rfl⟩ := hop hm
    refine (Keyring.openFor_asks hhome hsubdir).bind (.of_forall _ fun _ result => ?_)
    cases result <;> trivial
  | bestKey handle => exact h.use_asks hm _ fun ring hof => hof.bestKey_asks
  | reload handle addNew => exact h.use_asks hm _ fun ring hof => hof.reload_asks addNew
  | clone handle copy => trivial
  | drop handle => trivial

theorem use_staysIn {α : Type} (h : s.IsAt place mine) {handle : String} (hm : mine handle)
    {routine : Keyring → Routine (Except Fault α × Keyring)} (answer : α → Outcome)
    (hroutine : ∀ ring : Keyring, ring.IsOf place.directory place.context →
      (routine ring).StaysIn place.directory place.context s.machine) :
    (s.use handle routine answer).StaysIn place.directory place.context s.machine := by
  rcases h.use_cases hm routine answer with huse | ⟨n, ring, hof, huse⟩
  · rw [huse]
    exact .done _
  · rw [huse]
    exact (hroutine ring hof).bind (.done _)

/-- Wherever an operation with a handle of the place is stopped, it has changed no files but those
of the context. -/
theorem plan_staysIn (h : s.IsAt place mine) (hop : op.Respects place mine) (hm : mine op.handle)
    (hu : s.machine.Undisturbed) :
    (s.plan op).StaysIn place.directory place.context s.machine := by
  cases op with
  | openFor handle resolver options user context =>
    obtain ⟨hhome, hsubdir, rfl⟩ := hop hm
    refine (Keyring.openFor_staysIn hhome hsubdir s.machine).bind ?_
    cases ((Keyring.openFor resolver options user place.context).run s.machine).1 <;>
      exact .done _
  | bestKey handle => exact h.use_staysIn hm _ fun ring hof => hof.bestKey_staysIn hu
  | reload handle addNew => exact h.use_staysIn hm _ fun ring hof => hof.reload_staysIn hu addNew
  | clone handle copy => exact .done _
  | drop handle => exact .done _

/-- Whatever others do meanwhile, by induction on the operations. -/
theorem observed {o : Observed} (h : o.session.IsAt place mine) {xs : List Occasion}
    (hxs : ∀ x ∈ xs, x.2.Respects place mine) : (o.run xs).session.IsAt place mine := by
  induction xs generalizing o with
  | nil => exact h
  | cons x xs ih =>
    obtain ⟨hx, hxs⟩ := List.forall_mem_cons.mp hxs
    have hstep : (o.step x).2.session.IsAt place mine := h.stepAmid hx x.1
    exact ih hstep hxs

/-- Undisturbed operations with handles of the place change no files but those of the context, by
induction on the operations. -/
theorem steps (h : s.IsAt place mine) (hu : s.machine.Undisturbed) {ops : List Operation}
    (hops : ∀ op ∈ ops, op.Respects place mine ∧ mine op.handle) :
    (s.steps ops).IsAt place mine ∧
      (s.steps ops).machine.Undisturbed ∧ (s.steps ops).machine.cwd = s.machine.cwd ∧
      Keyring.Confined s.machine.cwd place.directory place.context s.machine.files
        (s.steps ops).machine.files := by
  induction ops generalizing s with
  | nil => exact ⟨h, hu, rfl, .refl _ _ _ _⟩
  | cons op ops ih =>
    obtain ⟨⟨hop, hm⟩, hops⟩ := List.forall_mem_cons.mp hops
    have hu' : (s.step op).2.machine.Undisturbed := by
      rw [step_machine]
      exact hu.run _
    have hcwd : (s.step op).2.machine.cwd = s.machine.cwd := by
      rw [step_machine, Routine.run_cwd]
    have hfirst := (h.plan_staysIn hop hm hu).run
    rw [← step_machine] at hfirst
    obtain ⟨hat, hundisturbed, hcwd', hrest⟩ := ih (h.step hop) hu' hops
    rw [hcwd] at hcwd' hrest
    exact ⟨hat, hundisturbed, hcwd', hfirst.trans hrest⟩

end IsAt

end Session

/-! ### Contexts side by side -/

/-- A text that is no context opens no keyring, and the session stays as it is. An operation with a
handle of a context makes no requests but those of its keyrings, whatever others do at any moment,
also with other handles of the session. Undisturbed, all that such operations ever change, stopped
wherever one may be, is the directory, which they may make, and files of the context in there.
Another context uses other names, so that its files are unchanged; and none of the names beside the
context itself is a context. -/
theorem contexts_apart (place : Place) :
    (Context.isValid place.context = false → ∀ (s : Session) (handle : String)
      (resolver : HomeResolver) (options : KeyringOptions) (user : Option (List Char)),
      ∃ fault, s.step (.openFor handle resolver options user place.context) = (.fault fault, s) ∧
        (resolver user = .error fault ∨ fault = .failed .invalidContext)) ∧
    (∀ (o : Observed) (mine : String → Prop) (xs : List Occasion) (op : Operation),
      o.session.IsAt place mine → (∀ x ∈ xs, x.2.Respects place mine) →
      op.Respects place mine → mine op.handle →
      ((o.run xs).session.plan op).Asks (Keyring.Asked place.directory place.context)) ∧
    (∀ (s : Session) (mine : String → Prop) (ops : List Operation) (op : Operation) (n : Nat)
      (torn : Option Nat), s.IsAt place mine → s.machine.Undisturbed →
      (∀ op ∈ ops, op.Respects place mine ∧ mine op.handle) →
      op.Respects place mine → mine op.handle →
      let t := s.machine.files
      let u := (((s.steps ops).plan op).stop n torn (s.steps ops).machine).files
      Keyring.Confined s.machine.cwd place.directory place.context t u ∧
      (Context.isValid place.context = true → t.Grounded → ∀ other name,
        Context.isValid other = true → other ≠ place.context → Keyring.Uses other name →
        (u.entryAt s.machine.cwd (place.directory.join ⟨name⟩)).toOption =
          (t.entryAt s.machine.cwd (place.directory.join ⟨name⟩)).toOption)) ∧
    (Context.isValid place.context = true →
      (∀ other name, Context.isValid other = true → other ≠ place.context →
        Keyring.Uses other name → ¬ Keyring.Uses place.context name) ∧
      ∀ name, Keyring.Uses place.context name → name ≠ place.context →
        Context.isValid name = false) := by
  have hapart : Context.isValid place.context = true → ∀ other name,
      Context.isValid other = true → other ≠ place.context → Keyring.Uses other name →
      ¬ Keyring.Uses place.context name :=
    fun hv other name ho hne huses huses' => hne (huses.context_unique ho hv huses')
  refine ⟨fun hv s handle resolver options user => ?_, fun o mine xs op h hxs hop hm => ?_,
    fun s mine ops op n torn h hu hops hop hm => ?_,
    fun hv => ⟨hapart hv, fun name huses hne => ?_⟩⟩
  · cases hhome : resolver user with
    | error fault =>
      refine ⟨fault, ?_, Or.inl rfl⟩
      simp [Session.step, Session.openFor, Session.perform, Keyring.openFor, hhome]
    | ok home =>
      refine ⟨.failed .invalidContext, ?_, Or.inr rfl⟩
      simp [Session.step, Session.openFor, Session.perform, Keyring.openFor, hhome, hv]
  · exact (h.observed hxs).plan_asks hop hm
  · obtain ⟨hat, hundisturbed, hcwd, hbefore⟩ := h.steps hu hops
    have hlast := hat.plan_staysIn hop hm hundisturbed n torn
    rw [hcwd] at hlast
    have hconfined := hbefore.trans hlast
    exact ⟨hconfined, fun hv hg other name ho hne huses =>
      hconfined.entryAt_eq hg (huses.isName ho) (hapart hv other name ho hne huses)⟩
  · exact huses.isValid_eq_false hne

def otherFile : Entry := .file 0o600 (KeyFile.serialize [⟨7, 990, [171]⟩])

/-- A machine where the other context has its file and its marker. -/
def besideMachine : Machine :=
  Keyring.sampleMachine [([['h']], .directory 0o755), ([['h'], ['k']], .directory 0o700),
    ([['h'], ['k'], ['d']], otherFile), ([['h'], ['k'], "d.lock".toList], .file 0o600 [])] id

def otherOpen : Operation :=
  .openFor "b" (fun _ => .ok samplePlace.home) { subdir := samplePlace.subdir } none ['d']

def besideSession : Session := (Session.step { machine := besideMachine } otherOpen).2

/-- The files when a search for a key is stopped that has written ten bytes of its temporary
file. -/
def besideFiles : FileTree :=
  (((besideSession.steps [sampleOpen "a"]).plan (.bestKey "a")).stop 8 (some 10)
    (besideSession.steps [sampleOpen "a"]).machine).files

theorem besideSession_isAt : besideSession.IsAt samplePlace (· = "a") := by
  have hempty : Session.IsAt { machine := besideMachine } samplePlace (· = "a") :=
    ⟨fun _ hx => absurd hx List.not_mem_nil, fun _ _ _ hring => by cases hring⟩
  have hopen : otherOpen.Respects samplePlace (· = "a") := fun h => absurd h (by decide)
  exact hempty.step hopen

theorem besideSession_files : besideSession.machine.files = besideMachine.files := by
  decide +kernel

theorem besideMachine_grounded : besideMachine.files.Grounded := by
  apply FileTree.grounded_of_entries
  simp only [besideMachine, Keyring.sampleMachine, List.forall_mem_cons]
  exact ⟨⟨_, rfl⟩, ⟨_, rfl⟩, ⟨_, rfl⟩, ⟨_, rfl⟩, by simp⟩

/-- There is a marker and a temporary file then, and the other context has its files. -/
theorem contexts_apart_beside :
    (∃ fault, besideSession.step (.openFor "a" (fun _ => .ok samplePlace.home) {} none
      "a/b".toList) = (.fault fault, besideSession)) ∧
    (((Observed.mk besideSession [] []).run
      (meddled ++ [(fun _ => id, .reload "b" true)])).session.plan (.reload "a" true)).Asks
      (Keyring.Asked samplePlace.directory samplePlace.context) ∧
    besideFiles.entries.length = 6 ∧
    Keyring.Confined besideSession.machine.cwd samplePlace.directory samplePlace.context
      besideSession.machine.files besideFiles ∧
    (besideFiles.entryAt besideSession.machine.cwd (samplePlace.directory.join ⟨['d']⟩)).toOption =
      some otherFile ∧
    ¬ Keyring.Uses samplePlace.context "d.lock".toList ∧
    Context.isValid "c.lock".toList = false := by
  have hopen : (sampleOpen "a").Respects samplePlace (· = "a") := fun _ => ⟨rfl, rfl, rfl⟩
  have hu : besideSession.machine.Undisturbed := by
    have hstart : besideMachine.Undisturbed :=
      ⟨fun _ _ => rfl, by simp [besideMachine, Keyring.sampleMachine], fun _ => rfl⟩
    rw [besideSession, Session.step_machine]
    exact hstart.run _
  have hmeddled : ∀ x ∈ meddled ++ [(fun _ => id, .reload "b" true)],
      x.2.Respects samplePlace (· = "a") := by
    simp only [meddled, List.cons_append, List.nil_append, List.forall_mem_cons]
    exact ⟨hopen, trivial, trivial, by simp⟩
  obtain ⟨-, hasks, hstays, hnames⟩ := contexts_apart samplePlace
  obtain ⟨fault, hfault, -⟩ := (contexts_apart ⟨samplePlace.home, ⟨[]⟩, "a/b".toList⟩).1 (by decide)
    besideSession "a" (fun _ => .ok samplePlace.home) {} none
  have hbeside := hstays besideSession (· = "a") [sampleOpen "a"] (.bestKey "a") 8 (some 10)
    besideSession_isAt hu (by simpa using ⟨hopen, rfl⟩) trivial rfl
  have hother := hbeside.2 (by decide) (besideSession_files ▸ besideMachine_grounded) ['d'] ['d']
    (by decide) (by decide) .file
  have hfile : (besideSession.machine.files.entryAt besideSession.machine.cwd
      (samplePlace.directory.join ⟨['d']⟩)).toOption = some otherFile := by decide +kernel
  obtain ⟨hapart, hnone⟩ := hnames (by decide)
  have hown := hasks ⟨besideSession, [], []⟩ (· = "a") _ (.reload "a" true) besideSession_isAt
    hmeddled trivial rfl
  have hentries : besideFiles.entries.length = 6 := by decide +kernel
  have hmarker := hapart ['d'] "d.lock".toList (by decide) (by decide) .marker
  have hlock := hnone "c.lock".toList .marker (by decide)
  refine ⟨⟨fault, hfault⟩, hown, hentries, hbeside.1, ?_, hmarker, hlock⟩
  exact hother.trans hfile

end Keyrings
