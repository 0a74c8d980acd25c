import Keyrings.CommandLine

/-! Settings of which one alone is given. A variable sets a word, whatever the case of its name, and
variables that set no known word do not matter as long as their steps can be taken. So if one
variable sets a known word and no other one does, that word is what the variable's text looks like
and every other word has its default. -/

namespace Keyrings.Settings

def words : List String :=
  ["home_dir", "keyring_subdir", "lock_max_timeouts", "lock_timeout_ms", "log_level", "log_format"]

/-- The settings that are in force if none is given. -/
def standard : Settings where
  homeDir? := none
  keyringSubdir := standardSubdir.toList
  lockMaxTimeouts := LockPolicy.standard.maxTimeouts
  lockTimeoutMillis := LockPolicy.standard.timeout.millis
  logLevel := "info".toList
  logFormat := "console".toList

/-- A variable with its text is the only one that gives a setting. -/
structure Only (env : Environment) (var text : List Char) : Prop where
  given : (var, text) ∈ env
  only : ∀ x ∈ env, ∀ name, Name.ofVariable? x.1 = some name → x = (var, text) ∨
    (∀ word ∈ words, name.word ≠ word.toList) ∧ name.steps.findSome? Step.fault? = none

theorem mem_collect {env : Environment} {name : Name} {text : List Char} :
    (name, text) ∈ collect env ↔ ∃ x ∈ env, Name.ofVariable? x.1 = some name ∧ x.2 = text := by
  simp only [collect, List.mem_reverse, List.mem_filterMap, Option.map_eq_some_iff, Prod.mk.injEq]
  constructor
  · rintro ⟨x, hx, n, hn, rfl, rfl⟩
    exact ⟨x, hx, hn, rfl⟩
  · rintro ⟨x, hx, hn, rfl⟩
    exact ⟨x, hx, name, hn, rfl, rfl⟩

theorem value?_eq_map (given : List (Name × List Char)) (word : String) : value? given word =
    (given.find? fun x => x.1.word == word.toList).map fun x =>
      Name.value x.1.steps (Value.ofText x.2) := rfl

namespace Only

variable {env : Environment} {var text : List Char} {word : String}
  (h : Only env var text)
  (hname : Name.ofVariable? var = some ⟨word.toList, []⟩)
include h hname

/-- What is given is the word with the text, apart from what is no known setting. -/
theorem mem_cases {x : Name × List Char} (hx : x ∈ collect env) : x = (⟨word.toList, []⟩, text) ∨
    (∀ w ∈ words, x.1.word ≠ w.toList) ∧ x.1.steps.findSome? Step.fault? = none := by
  obtain ⟨name, value⟩ := x
  obtain ⟨y, hy, hn, rfl⟩ := mem_collect.mp hx
  rcases h.only y hy name hn with rfl | hunknown
  · rw [hname] at hn
    cases hn
    exact Or.inl rfl
  · exact Or.inr hunknown

theorem value?_eq (hword : word ∈ words) :
    value? (collect env) word = some (Value.ofText text) := by
  have hmem : ((⟨word.toList, []⟩, text) : Name × List Char) ∈ collect env :=
    mem_collect.mpr ⟨_, h.given, hname, rfl⟩
  rw [value?_eq_map]
  cases hfind : (collect env).find? fun x => x.1.word == word.toList with
  | none => simpa using List.find?_eq_none.mp hfind _ hmem
  | some x =>
    have hx : x.1.word = word.toList := by simpa using List.find?_some hfind
    rcases h.mem_cases hname (List.mem_of_find?_eq_some hfind) with rfl | ⟨hunknown, -⟩
    · rfl
    · exact absurd hx (hunknown word hword)

theorem value?_eq_none {other : String} (hother : other ∈ words) (hne : other ≠ word) :
    value? (collect env) other = none := by
  rw [value?_eq_map, Option.map_eq_none_iff, List.find?_eq_none]
  intro x hx
  rcases h.mem_cases hname hx with rfl | ⟨hunknown, -⟩
  · simpa [String.toList_inj] using fun heq : word = other => hne heq.symm
  · simpa using hunknown other hother

theorem checkSteps_eq : checkSteps (collect env) = .ok () := by
  have hnone : ((collect env).findSome? fun x => x.1.steps.findSome? Step.fault?) = none := by
    rw [List.findSome?_eq_none_iff]
    intro x hx
    rcases h.mem_cases hname hx with rfl | ⟨-, hsteps⟩
    · rfl
    · exact hsteps
  unfold checkSteps
  split
  · rename_i reason hsome
    exact absurd (hnone.symm.trans hsome) (by simp)
  · rfl

theorem get_eq {α : Type} (hword : word ∈ words) (default : α)
    (convert : Value → Except Mismatch α) : get (collect env) word default convert =
      (convert (Value.ofText text)).mapError (.mismatch word) := by
  rw [get, h.value?_eq hname hword]
  cases hc : convert (Value.ofText text) <;> simp only [hc] <;> rfl

theorem get_default {α : Type} {other : String} (hother : other ∈ words) (hne : other ≠ word)
    (default : α) (convert : Value → Except Mismatch α) :
    get (collect env) other default convert = .ok default := by
  rw [get, h.value?_eq_none hname hother hne]

end Only

/-! ### One setting -/

inductive Setting
  | homeDir | keyringSubdir | lockMaxTimeouts | lockTimeoutMillis | logLevel | logFormat

namespace Setting

def var : Setting → String
  | homeDir => "HOMEKEYS_HOME_DIR"
  | keyringSubdir => "HOMEKEYS_KEYRING_SUBDIR"
  | lockMaxTimeouts => "HOMEKEYS_LOCK_MAX_TIMEOUTS"
  | lockTimeoutMillis => "HOMEKEYS_LOCK_TIMEOUT_MS"
  | logLevel => "HOMEKEYS_LOG_LEVEL"
  | logFormat => "HOMEKEYS_LOG_FORMAT"

def word : Setting → String
  | homeDir => "home_dir"
  | keyringSubdir => "keyring_subdir"
  | lockMaxTimeouts => "lock_max_timeouts"
  | lockTimeoutMillis => "lock_timeout_ms"
  | logLevel => "log_level"
  | logFormat => "log_format"

/-- The standard settings, but for one that is made out of a value. -/
def put : Setting → Value → Except Mismatch Settings
  | homeDir, v => v.asText.map fun home => { standard with homeDir? := some home }
  | keyringSubdir, v => v.asText.map fun subdir => { standard with keyringSubdir := subdir }
  | lockMaxTimeouts, v => v.asSmallCount.map fun n => { standard with lockMaxTimeouts := n }
  | lockTimeoutMillis, v => v.asCount.map fun n => { standard with lockTimeoutMillis := n }
  | logLevel, v => v.asText.map fun level => { standard with logLevel := level }
  | logFormat, v => v.asText.map fun format => { standard with logFormat := format }

theorem ofVariable?_var (x : Setting) :
    Name.ofVariable? x.var.toList = some ⟨x.word.toList, []⟩ := by
  cases x <;> decide

end Setting

/-- Any directory of keyrings goes with the standard settings, but it has to have a name. -/
theorem validate_keyringSubdir {subdir : List Char} (hne : subdir ≠ []) :
    validate { standard with keyringSubdir := subdir } =
      .ok { standard with keyringSubdir := subdir } := by
  rw [validate, if_neg (by simpa using hne)]
  rfl

/-- A setting that alone is given is put in the place of its default, if it can be. -/
theorem Only.ofEnvironment_eq (x : Setting) {env : Environment} {text : List Char}
    (h : Only env x.var.toList text) : ofEnvironment env =
      ((x.put (Value.ofText text)).mapError (.mismatch x.word)).bind validate := by
  have hname := x.ofVariable?_var
  cases x <;> simp only [Setting.var, Setting.word] at h hname ⊢ <;>
    simp (disch := decide) only [ofEnvironment, h.checkSteps_eq hname, h.get_eq hname,
      h.get_default hname, Setting.put]
  case lockMaxTimeouts => cases (Value.ofText text).asSmallCount <;> rfl
  case lockTimeoutMillis => cases (Value.ofText text).asCount <;> rfl
  all_goals cases (Value.ofText text).asText <;> rfl

/-- The settings of a run with some variables, and what is known about homes in it. -/
theorem settings_of_environment {s : CommandLine.Surroundings} {env : Environment}
    (hs : s.environment = .ok env) :
    s.settings = (ofEnvironment env).map fun settings => (settings, s.homes env) := by
  simp only [CommandLine.Surroundings.settings, hs]
  cases h : ofEnvironment env <;> simp [h, bind, Except.bind, Except.map, pure, Except.pure]

/-- A run with one variable and nothing else around it. -/
def alone (var text : String) : CommandLine.Surroundings where
  declared := [(var.toList, text.toList)]
  envFile := none
  ownHome? := none
  accounts := []

theorem environment_alone (var text : String) :
    (alone var text).environment = .ok (alone var text).declared := rfl

theorem only_alone (var text : String) :
    Only (alone var text).declared var.toList text.toList where
  given := List.mem_singleton_self _
  only := fun _ hx _ _ => Or.inl (List.mem_singleton.mp hx)

end Keyrings.Settings
