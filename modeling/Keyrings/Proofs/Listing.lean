import Keyrings.CommandLine
import Keyrings.Proofs.Bystanders
import Keyrings.Proofs.Numeral
import Keyrings.Proofs.Readiness
import Keyrings.Proofs.Runs

/-! The commands that list a keyring and that print a key to use, side by side. A line tells what it
shows by its text alone: an identifier, an age and a mark at its end. At one time both commands see
the same keys of a file, whatever it contains, so that the first marked line is that of the key that
is printed; and where no line is marked, that key was made and saved just then. -/

namespace Keyrings

/-! ### Printed numbers -/

namespace Decimal

theorem toList_toString (x : Int) : (toString x).toList = render x := by
  cases x with
  | ofNat n => exact String.toList_ofList
  | negSucc n =>
    have hprint : toString (Int.negSucc n) = "-" ++ Nat.repr (n + 1) := rfl
    rw [render, if_pos (Int.negSucc_lt_zero n), hprint, String.toList_append, Nat.toList_repr]
    rfl

/-- A number that is printed with blanks before it is read back. -/
theorem scan_alignRight {x : Int} {rest : List Char} (width : Nat) (hx : inRange x = true)
    (hrest : ∀ c ∈ rest.head?, c.isDigit = false) :
    scan ((CommandLine.alignRight width (toString x)).toList ++ rest) = some (x, rest) := by
  generalize hblanks : List.replicate (width - (toString x).length) ' ' = blanks
  have hall : ∀ c ∈ blanks, isBlank c = true := by
    intro c hc
    rw [← hblanks] at hc
    rw [List.eq_of_mem_replicate hc]
    decide
  have htext : (CommandLine.alignRight width (toString x)).toList = blanks ++ render x := by
    rw [CommandLine.alignRight, hblanks, String.toList_append, String.toList_ofList,
      toList_toString]
  rw [htext, List.append_assoc, ← scan_dropWhile (fun _ h => h), List.dropWhile_append_of_pos hall,
    scan_dropWhile (fun _ h => h), scan_render hx hrest]

end Decimal

namespace CommandLine

/-! ### What a line shows -/

structure Shown where
  id : Int
  age : Int
  recent : Bool
  deriving DecidableEq

namespace Shown

def mark : List Char := "  (recent)".toList

def ofLine? (line : String) : Option Shown := do
  let (id, rest) ← Decimal.scan line.toList
  let rest ← rest.dropPrefix? "  age ".toList
  let (age, rest) ← Decimal.scan rest
  let rest ← rest.dropPrefix? "s  ".toList
  return ⟨id, age, mark.isSuffixOf rest⟩

def ofKey (now : Instant) (k : Key) : Shown := ⟨k.id.toInt, (k.age now).toInt, k.isRecent now⟩

/-- When a key was created, as its line tells it. -/
def created (k : Key) : List Char :=
  ((Calendar.render? k.created).getD (toString k.created.toInt)).toList

theorem toList_listing (k : Key) (now : Instant) : (listing k now).toList =
    (alignRight 10 (toString k.id.toInt)).toList ++ ("  age ".toList ++
      ((alignRight 4 (toString (k.age now).toInt)).toList ++ ("s  ".toList ++
        (created k ++ if k.isRecent now then mark else [])))) := by
  have hmark : (if k.isRecent now then "  (recent)" else "").toList =
      if k.isRecent now then mark else [] := by
    split_ifs <;> rfl
  simp only [listing, String.toList_append, List.append_assoc, hmark]
  rfl

/-- A date ends in its offset, and a number in a digit. -/
theorem created_last (k : Key) : ∀ c ∈ (created k).getLast?, c ≠ ')' := by
  unfold created
  cases hr : Calendar.render? k.created with
  | none =>
    intro c hc
    rw [Option.getD_none, Decimal.toList_toString] at hc
    rcases Decimal.mem_render (List.mem_of_getLast? hc) with h | rfl
    · rintro rfl
      exact absurd h (by decide)
    · decide
  | some text =>
    unfold Calendar.render? at hr
    simp only at hr
    split_ifs at hr
    rw [← Option.some.inj hr]
    intro c hc
    rw [Option.getD_some, String.toList_append, List.getLast?_append] at hc
    cases hc
    decide

/-- The mark ends the lines of recent keys and no others. -/
theorem isSuffixOf_mark (k : Key) (now : Instant) :
    mark.isSuffixOf (created k ++ if k.isRecent now then mark else []) = k.isRecent now := by
  cases hrecent : k.isRecent now with
  | true =>
    rw [if_pos rfl, List.isSuffixOf_iff_suffix]
    exact List.suffix_append ..
  | false =>
    rw [if_neg (by decide), List.append_nil, Bool.eq_false_iff]
    intro hsuffix
    obtain ⟨front, hfront⟩ := List.isSuffixOf_iff_suffix.mp hsuffix
    refine created_last k ')' ?_ rfl
    rw [← hfront, List.getLast?_append]
    rfl

/-- A line shows what it is to show. -/
theorem ofLine?_listing (k : Key) (now : Instant) :
    ofLine? (listing k now) = some (ofKey now k) := by
  have hid : ∀ rest, Decimal.scan ((alignRight 10 (toString k.id.toInt)).toList ++
      ("  age ".toList ++ rest)) = some (k.id.toInt, "  age ".toList ++ rest) :=
    fun rest => Decimal.scan_alignRight 10 (Decimal.inRange_int32 k.id) (by simp)
  have hage : ∀ rest, Decimal.scan ((alignRight 4 (toString (k.age now).toInt)).toList ++
      ("s  ".toList ++ rest)) = some ((k.age now).toInt, "s  ".toList ++ rest) :=
    fun rest => Decimal.scan_alignRight 4 (Decimal.inRange_int64 (k.age now)) (by simp)
  have hdrop : ∀ front rest : List Char, (front ++ rest).dropPrefix? front = some rest :=
    fun front rest => List.dropPrefix?_append_of_beq rest (beq_self_eq_true front)
  simp only [ofLine?, toList_listing, hid, hdrop, hage, isSuffixOf_mark, Option.bind_eq_bind,
    Option.bind_some, Option.pure_def]
  rfl

/-- What the lines of some keys show, by their text alone. -/
theorem filterMap_listing (keys : List Key) (now : Instant) :
    (keys.map (listing · now)).filterMap ofLine? = keys.map (ofKey now) := by
  rw [List.filterMap_map, ← List.filterMap_eq_map]
  refine List.filterMap_congr fun k _ => ?_
  rw [Function.comp_apply, ofLine?_listing, Function.comp_apply]

/-- The first line that is marked is that of the first recent key. -/
theorem find?_recent (keys : List Key) (now : Instant) :
    ((keys.map (listing · now)).filterMap ofLine?).find? (·.recent) =
      (findRecent keys now).map (ofKey now) := by
  rw [filterMap_listing, List.find?_map]
  rfl

/-- The two ways to look at recency agree on keys from 1970 or later: the age is exact, and so is
the comparison. -/
theorem ofKey_recent_iff {k : Key} {now : Instant} (h0 : 0 ≤ k.created.toInt)
    (hnow : 0 ≤ now.toInt) : (ofKey now k).recent = true ↔ (ofKey now k).age < recentFor := by
  have hlatest := k.created.le_latest
  have hlatest' := now.le_latest
  have hage : (k.age now).toInt = now.toInt - k.created.toInt := by
    refine Instant.toInt_clamp_of_le ?_ ?_
    · unfold Instant.earliest
      unfold Instant.latest at hlatest
      omega
    · omega
  have hrecent := Key.isRecent_iff k now
  unfold Instant.earliest at hrecent
  simp only [ofKey, hage, hrecent]
  omega

end Shown

end CommandLine

/-! ### Opening -/

/-- A path starts at the working directory or at the root, and there always is a root. -/
theorem FileTree.Sound.path {t : FileTree} {cwd : Location} (h : t.Sound cwd) (p : Path) :
    t.Sound (p.start cwd) := by
  refine ⟨h.grounded, ?_⟩
  unfold Path.start
  split_ifs
  · exact ⟨directoryMode, rfl⟩
  · exact h.start

/-- A clock that stays at a time stays there whatever is done. -/
theorem Clock.IsSteady.answer {m : Machine} {t : Instant} (h : m.clock.IsSteady t) (r : Request) :
    (m.answer r).2.clock.IsSteady t := by
  have hchange : ∀ outcome, (m.change outcome).2.clock.IsSteady t := by
    intro outcome
    cases outcome <;> exact h
  cases r with
  | now => exact h.look
  | sleep time =>
    have hsleep : m.clock.sleep time = m.clock := by simp [Clock.sleep, h.countsSleep_eq]
    simpa only [Machine.answer, hsleep] using h
  | draw count => exact h
  | uuid => exact h
  | read path => exact h
  | store path bytes => exact h
  | create path mode => exact hchange _
  | rename source target => exact hchange _
  | remove path => exact hchange _
  | makeDirectory path mode => exact hchange _

theorem Clock.IsSteady.run {α : Type} {m : Machine} {t : Instant} (h : m.clock.IsSteady t)
    (r : Routine α) : (r.run m).2.clock.IsSteady t := by
  induction r generalizing m with
  | done a => exact h
  | ask request next ih => exact ih _ (h.answer request)

/-- Nobody else does anything on a machine, its clock stands still, and all its files stand in
directories. -/
structure Machine.Still (m : Machine) (now : Instant) : Prop where
  undisturbed : m.Undisturbed
  steady : m.clock.IsSteady now
  sound : m.files.Sound m.cwd

def Machine.opened (m : Machine) (directory : Path) : Machine :=
  (Machine.change { m with clock := m.clock.look.2 }
    (m.files.makeDirectory m.cwd directory privateDirectoryMode)).2

namespace Machine

variable {m : Machine} {now : Instant} {directory : Path}

theorem opened_cwd (m : Machine) (directory : Path) : (m.opened directory).cwd = m.cwd := by
  unfold opened
  cases m.files.makeDirectory m.cwd directory privateDirectoryMode <;> rfl

/-- Opening changes no file, and makes a directory if nothing stands there. -/
theorem opened_files (m : Machine) (directory : Path) :
    (m.opened directory).files = m.files ∨ ∃ l, m.files.locate m.cwd directory = .ok (.name l) ∧
      m.files.lookup l = none ∧
      (m.opened directory).files = m.files.insert l (.directory privateDirectoryMode) := by
  unfold opened
  cases hmake : m.files.makeDirectory m.cwd directory privateDirectoryMode with
  | error e => exact Or.inl rfl
  | ok t => exact Or.inr (FileTree.makeDirectory_eq_ok.mp hmake)

theorem Still.answer_now (h : m.Still now) : (m.answer .now).2.Still now :=
  ⟨h.undisturbed.answer .now, h.steady.look, h.sound⟩

theorem Still.opened (h : m.Still now) (directory : Path) : (m.opened directory).Still now := by
  have hlook := h.answer_now
  unfold Machine.opened
  cases hmake : m.files.makeDirectory m.cwd directory privateDirectoryMode with
  | error e => exact hlook
  | ok t =>
    have hsound := FileTree.Sound.makeDirectory (h.sound.path directory) hmake h.sound.start
    exact ⟨hlook.undisturbed.of_eq rfl id, hlook.steady, hsound⟩

section Name

variable {name : List Char} (h : m.Still now) (hn : IsName name)
include h hn

theorem Still.opened_contents : (m.opened directory).files.contents (m.opened directory).cwd
    (directory.join ⟨name⟩) = m.files.contents m.cwd (directory.join ⟨name⟩) := by
  rw [opened_cwd]
  unfold Machine.opened
  cases hmake : m.files.makeDirectory m.cwd directory privateDirectoryMode with
  | error e => rfl
  | ok t =>
    obtain ⟨hbefore, hafter⟩ := FileTree.contents_makeDirectory h.sound.grounded hn hmake
    exact hafter.trans hbefore.symm

/-- Where there is something to read, the directory stands already. -/
theorem Still.opened_files_eq (hsome : m.files.contents m.cwd (directory.join ⟨name⟩) ≠ []) :
    (m.opened directory).files = m.files := by
  unfold Machine.opened
  cases hmake : m.files.makeDirectory m.cwd directory privateDirectoryMode with
  | error e => rfl
  | ok t => exact absurd (FileTree.contents_makeDirectory h.sound.grounded hn hmake).1 hsome

end Name

end Machine

/-! ### Commands -/

section Commands

variable {place : Place} {now : Instant} {m : Machine}

def Place.listed (place : Place) (m : Machine) (now : Instant) : List Key :=
  KeyFile.parse (m.files.contents m.cwd place.file) now

def Place.opened (place : Place) (policy : LockPolicy) (keys : List Key) : Keyring :=
  { Keyring.inDirectory place.directory place.context policy with keys := keys }

theorem Place.isName (hv : Context.isValid place.context = true) : IsName place.context :=
  (Keyring.isOf_inDirectory hv place.directory LockPolicy.standard).isName

theorem Place.opened_isOf (hv : Context.isValid place.context = true) (policy : LockPolicy)
    (keys : List Key) : (place.opened policy keys).IsOf place.directory place.context :=
  (Keyring.isOf_inDirectory hv place.directory policy).with_keys keys

theorem openFor_run {resolver : HomeResolver} {options : KeyringOptions}
    {user : Option (List Char)} (hhome : resolver user = .ok place.home)
    (hsubdir : options.subdir = place.subdir) (hv : Context.isValid place.context = true)
    (hm : m.Still now) :
    (Keyring.openFor resolver options user place.context).run m =
      (.ok (place.opened options.policy (place.listed m now)), m.opened place.directory) := by
  have hdir : place.home.join options.subdir = place.directory := by
    rw [hsubdir]
    rfl
  simp only [Keyring.openFor, hhome, hv, if_true, Routine.bind_eq, Routine.run_bind,
    Keyring.openIn_run, hdir, hm.steady.now_eq]
  rfl

/-- After opening, the file holds the same keys still. -/
theorem Place.listed_opened (hv : Context.isValid place.context = true) (hm : m.Still now) :
    place.listed (m.opened place.directory) now = place.listed m now := by
  rw [listed, Place.file, hm.opened_contents (Place.isName hv)]
  rfl

/-- A recent key that is loaded is handed out, with no file touched. -/
theorem Keyring.bestKey_of_findRecent {ring : Keyring} {k : Key}
    (hk : findRecent ring.keys m.clock.now = some k) :
    ring.bestKey.run m = ((.ok k.id, ring), (m.answer .now).2) := by
  have hnow : (m.answer .now).1 = m.clock.now := rfl
  simp only [Keyring.bestKey, Routine.request, Routine.bind_eq, Routine.ask_bind,
    Routine.done_bind, Routine.run_ask, hnow, hk]
  rfl

section Made

variable {ring ring' : Keyring} {directory : Path} {context : List Char} {m' : Machine}
  (hof : ring.IsOf directory context) (hm : m.Still now)
  (hsaved : Keyring.saved m.files m.cwd ring.file now = ring.keys)
include hof hm hsaved

/-- A renewal of a keyring that has loaded its file saves a new key after those that are loaded. -/
theorem Keyring.IsOf.renew_makes (hren : ring.renew.run m = ((.ok (), ring'), m')) :
    ∃ k, IsFresh ring.keys now k ∧ ring'.keys = ring.keys ++ [k] ∧ m'.clock.now = now ∧
      m'.files.read m'.cwd ring.file = .ok (KeyFile.serialize (ring.keys ++ [k])) := by
  have hreload : (ring.reload true).run m = ((.ok (), ring'), m') := hren
  obtain ⟨locked, k, hreloaded⟩ :=
    (Keyring.reload_exact ⟨directory, context, hof⟩ hm.undisturbed.quiet).1 (by rw [hreload])
  simp only [hreload] at hreloaded
  have hlocked := hof.saved_of_acquire hm.undisturbed hreloaded.lock_taken m.clock.now
  have hfresh := hreloaded.key_fresh
  have hkeys := hreloaded.ring_eq
  rw [hlocked, hm.steady.now_eq, hsaved] at hfresh hkeys
  have hsteady := hm.steady.run ring.renew
  rw [hren] at hsteady
  refine ⟨k, hfresh, by rw [hkeys], hsteady.now_eq, ?_⟩
  rw [FileTree.read, hreloaded.file_written, hkeys]

/-- If none of them is recent, that key is handed out. -/
theorem Keyring.IsOf.bestKey_makes (hnone : findRecent ring.keys now = none) {id : Int32}
    (hrun : ring.bestKey.run m = ((.ok id, ring'), m')) :
    ∃ k, k.id = id ∧ hasId ring.keys k.id = false ∧
      m'.files.read m'.cwd ring.file = .ok (KeyFile.serialize (ring.keys ++ [k])) := by
  have hsearch := Keyring.bestKey_run ring m
  rw [hrun] at hsearch
  cases hsearch with
  | loaded hk =>
    rw [hm.steady.now_eq, hnone] at hk
    contradiction
  | @found k ring' m' hnone' hren hk =>
    obtain ⟨key, hfresh, hkeys, hnow, hread⟩ := hof.renew_makes hm.answer_now hsaved hren
    have hkey : key.id = k.id := by
      rw [hkeys, hnow, findRecent, List.find?_append, ← findRecent, hnone, Option.none_or] at hk
      rw [List.mem_singleton.mp (List.mem_of_find?_eq_some hk)]
    exact ⟨key, hkey, hfresh.id_new, hread⟩

end Made

variable {settings : Settings} {known : HomeDirectory} {user : Option (List Char)}
  (hhome : settings.homeResolver known user = .ok place.home)
  (hsubdir : settings.keyringOptions.subdir = place.subdir)
  (hv : Context.isValid place.context = true) (hm : m.Still now)
include hhome hsubdir hv hm

namespace CommandLine

theorem list_run : ((Command.list place.context user).perform settings known).run m =
    (.ok (("# " ++ place.file.toString) :: (place.listed m now).map (listing · now)),
      ((m.opened place.directory).answer .now).2) := by
  have hnow : ((m.opened place.directory).answer .now).1 = now :=
    (hm.opened place.directory).steady.now_eq
  simp only [Command.perform, Routine.bind_eq, Routine.run_bind, openFor_run hhome hsubdir hv hm,
    Routine.request, Routine.ask_bind, Routine.done_bind, Routine.run_ask, hnow]
  rfl

/-- The command that prints a key to use is the search of the keyring that is opened. -/
theorem best_run : ((Command.best place.context user).perform settings known).run m =
    (((place.opened settings.keyringOptions.policy (place.listed m now)).bestKey.run
        (m.opened place.directory)).1.1.map fun id => [toString id.toInt],
      ((place.opened settings.keyringOptions.policy (place.listed m now)).bestKey.run
        (m.opened place.directory)).2) := by
  simp only [Command.perform, Routine.bind_eq, Routine.run_bind, openFor_run hhome hsubdir hv hm]
  generalize (place.opened _ _).bestKey.run (m.opened place.directory) = r
  obtain ⟨⟨outcome, ring⟩, m'⟩ := r
  cases outcome <;> rfl

/-- The first recent key of a file is printed, and no file changes. -/
theorem best_of_recent {k : Key} (hk : findRecent (place.listed m now) now = some k) :
    ∃ m', ((Command.best place.context user).perform settings known).run m =
      (.ok [toString k.id.toInt], m') ∧ m'.files = m.files := by
  have hsome : m.files.contents m.cwd (place.directory.join ⟨place.context⟩) ≠ [] := by
    intro hempty
    rw [Place.listed, Place.file, hempty, KeyFile.parse_nil] at hk
    cases hk
  have hfiles := hm.opened_files_eq (Place.isName hv) hsome
  have hnow := (hm.opened place.directory).steady.now_eq
  refine ⟨((m.opened place.directory).answer .now).2, ?_, hfiles⟩
  rw [best_run hhome hsubdir hv hm, Keyring.bestKey_of_findRecent (by rwa [hnow])]
  rfl

/-- Where no key is recent, the key that is printed was made and saved after the others. -/
theorem best_of_none (hnone : findRecent (place.listed m now) now = none) {out : List String}
    {m' : Machine} (hrun : ((Command.best place.context user).perform settings known).run m =
      (.ok out, m')) :
    ∃ k, out = [toString k.id.toInt] ∧ hasId (place.listed m now) k.id = false ∧
      m'.files.read m'.cwd place.file = .ok (KeyFile.serialize (place.listed m now ++ [k])) := by
  rw [best_run hhome hsubdir hv hm] at hrun
  cases hbest : (place.opened settings.keyringOptions.policy (place.listed m now)).bestKey.run
      (m.opened place.directory) with
  | mk result m'' =>
    obtain ⟨outcome, ring⟩ := result
    rw [hbest] at hrun
    cases outcome with
    | error fault => cases hrun
    | ok id =>
      cases hrun
      have hsaved : Keyring.saved (m.opened place.directory).files (m.opened place.directory).cwd
          place.file now = place.listed m now := Place.listed_opened hv hm
      obtain ⟨k, hid, hnew, hread⟩ := (Place.opened_isOf hv _ _).bestKey_makes
        (hm.opened place.directory) hsaved hnone hbest
      exact ⟨k, by rw [hid], hnew, hread⟩

/-- Listing a keyring changes no file, but for its directory, which it makes where nothing stands.
After the header there is one line for each key of the file, in their order, and its mark stands on
the lines whose age is below five minutes. At the same time, with the same contents of the file, the
other command prints the identifier on the first marked line and changes no file. If no line is
marked and it succeeds, it prints an identifier that is on no line, and then the file consists of
the listed keys and the key with that identifier. -/
theorem list_best_agree (h0 : 0 ≤ now.toInt) {contents : List UInt8}
    (hcontents : m.files.contents m.cwd place.file = contents) :
    let keys := KeyFile.parse contents now
    let lines := keys.map (listing · now)
    let shown := lines.filterMap Shown.ofLine?
    (∃ m', ((Command.list place.context user).perform settings known).run m =
        (.ok (("# " ++ place.file.toString) :: lines), m') ∧
      (m'.files = m.files ∨ ∃ l, m.files.locate m.cwd place.directory = .ok (.name l) ∧
        m.files.lookup l = none ∧ m'.files = m.files.insert l (.directory privateDirectoryMode)) ∧
      m'.Still now ∧ m'.files.contents m'.cwd place.file = contents) ∧
    lines.map Shown.ofLine? = keys.map (fun k => some (Shown.ofKey now k)) ∧
    (∀ line ∈ lines, ∃ s, Shown.ofLine? line = some s ∧ (s.recent = true ↔ s.age < 300)) ∧
    ∀ m₂ : Machine, m₂.Still now → m₂.files.contents m₂.cwd place.file = contents →
      (∀ s, shown.find? (·.recent) = some s → ∃ m',
        ((Command.best place.context user).perform settings known).run m₂ =
          (.ok [toString s.id], m') ∧ m'.files = m₂.files) ∧
      (shown.find? (·.recent) = none → ∀ out m',
        ((Command.best place.context user).perform settings known).run m₂ = (.ok out, m') →
        ∃ k, out = [toString k.id.toInt] ∧ (∀ s ∈ shown, s.id ≠ k.id.toInt) ∧
          m'.files.read m'.cwd place.file = .ok (KeyFile.serialize (keys ++ [k]))) := by
  intro keys lines shown
  have hlisted : ∀ m₂ : Machine, m₂.files.contents m₂.cwd place.file = contents →
      place.listed m₂ now = keys := fun m₂ h₂ => by rw [Place.listed, h₂]
  have hshown : shown = keys.map (Shown.ofKey now) := Shown.filterMap_listing keys now
  have hfirst : shown.find? (·.recent) = (findRecent keys now).map (Shown.ofKey now) :=
    Shown.find?_recent keys now
  refine ⟨⟨_, hlisted m hcontents ▸ list_run hhome hsubdir hv hm, ?_⟩, ?_, ?_, fun m₂ hm₂ h₂ => ?_⟩
  · refine ⟨m.opened_files place.directory, (hm.opened place.directory).answer_now, ?_⟩
    rw [← hcontents]
    exact hm.opened_contents (Place.isName hv)
  · rw [List.map_map]
    exact List.map_congr_left fun k _ => Shown.ofLine?_listing k now
  · intro line hline
    obtain ⟨k, hk, rfl⟩ := List.mem_map.mp hline
    have hlife := (KeyFile.parse_storable contents now).2 k hk
    refine ⟨_, Shown.ofLine?_listing k now, Shown.ofKey_recent_iff ?_ h0⟩
    exact ((Key.isWithinLifetime_iff k now).mp hlife).1
  · constructor
    · intro s hs
      rw [hfirst] at hs
      obtain ⟨k, hk, rfl⟩ := Option.map_eq_some_iff.mp hs
      exact best_of_recent hhome hsubdir hv hm₂ (hlisted m₂ h₂ ▸ hk)
    · intro hnone out m' hrun
      rw [hfirst, Option.map_eq_none_iff] at hnone
      obtain ⟨k, hout, hnew, hread⟩ :=
        best_of_none hhome hsubdir hv hm₂ (hlisted m₂ h₂ ▸ hnone) hrun
      rw [hlisted m₂ h₂] at hnew hread
      refine ⟨k, hout, fun s hs => ?_, hread⟩
      rw [hshown] at hs
      obtain ⟨j, hj, rfl⟩ := List.mem_map.mp hs
      intro he
      exact hasId_eq_false_iff.mp hnew (List.mem_map.mpr ⟨j, hj, Int32.toInt_inj.mp he⟩)

end CommandLine

end Commands

namespace CommandLine

def sampleSettings : Settings := ⟨some samplePlace.home.text, samplePlace.subdir.text, 1, 5, [],
  "console".toList⟩

def sampleHomes : HomeDirectory := ⟨none, none, []⟩

/-- A keyring of which only the second key is recent. -/
def listedMachine : Machine :=
  Keyring.sampleMachine [([['h']], .directory 0o755), ([['h'], ['k']], .directory 0o700),
    ([['h'], ['k'], ['c']], .file 0o600 (Text.Plain.bytes "7 600 ab\n8 990 cd\n".toList))] id

theorem listedMachine_still : listedMachine.Still 1000 where
  undisturbed := ⟨fun _ _ => rfl, by simp [listedMachine, Keyring.sampleMachine], fun _ => rfl⟩
  steady := ⟨rfl, fun _ => rfl, rfl⟩
  sound := by
    refine ⟨FileTree.grounded_of_entries ?_, _, rfl⟩
    simp only [listedMachine, Keyring.sampleMachine, List.forall_mem_cons]
    exact ⟨⟨_, rfl⟩, ⟨_, rfl⟩, ⟨_, rfl⟩, by simp⟩

/-- The command that prints a key is run after the other one here. -/
theorem list_best_agree_sample : ∃ listed used,
    ((Command.list ['c'] none).perform sampleSettings sampleHomes).run listedMachine =
      (.ok ["# /h/k/c", "         7  age  400s  1970-01-01T00:10:00+00:00",
        "         8  age   10s  1970-01-01T00:16:30+00:00  (recent)"], listed) ∧
    ((Command.best ['c'] none).perform sampleSettings sampleHomes).run listed =
      (.ok ["8"], used) ∧ used.files = listed.files := by
  have hcontents : listedMachine.files.contents listedMachine.cwd samplePlace.file =
      Text.Plain.bytes "7 600 ab\n8 990 cd\n".toList := by decide +kernel
  have hhome : sampleSettings.homeResolver sampleHomes none = .ok samplePlace.home := rfl
  have hsubdir : sampleSettings.keyringOptions.subdir = samplePlace.subdir := rfl
  obtain ⟨⟨listed, hlist, -, hstill, hlisted⟩, -, -, hbest⟩ :=
    list_best_agree hhome hsubdir (by decide) listedMachine_still (by decide) hcontents
  obtain ⟨used, hused, hfiles⟩ := (hbest listed hstill hlisted).1 ⟨8, 10, true⟩ (by decide +kernel)
  have hlines : ("# " ++ samplePlace.file.toString) ::
      (KeyFile.parse (Text.Plain.bytes "7 600 ab\n8 990 cd\n".toList) 1000).map (listing · 1000) =
      ["# /h/k/c", "         7  age  400s  1970-01-01T00:10:00+00:00",
        "         8  age   10s  1970-01-01T00:16:30+00:00  (recent)"] := by decide +kernel
  exact ⟨listed, used, hlines ▸ hlist, hused, hfiles⟩

end CommandLine

end Keyrings
