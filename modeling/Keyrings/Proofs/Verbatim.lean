import Keyrings.Proofs.KeyFile
import Keyrings.Proofs.Settings
import Keyrings.Proofs.Spelling

/-! Settings that name directories. What is asked for is text, but a text that looks like a truth
value or a number is taken for one first and is then written anew: in lower case, without a plus
sign or zeros in front, without an exponent. So the directory is the one that was named only if the
name has the form that its value is written in. -/

namespace Keyrings

namespace Binary64

theorem positional_ne_nil (s : Scientific) : positional s ≠ [] := by
  simp only [positional]
  split_ifs <;> simp

/-- A value is written with one character at least. -/
theorem render_ne_nil (x : Binary64) : x.render ≠ [] := by
  cases x with
  | notANumber => decide
  | infinite negative => cases negative <;> decide
  | finite negative mantissa exponent =>
    simp only [render]
    split_ifs
    · simp
    · simp
    · simp
    · exact positional_ne_nil _

end Binary64

namespace Settings

/-- A text and what it becomes where text is asked for: the value that it looks like, if any, in
the form that such values are written in, and otherwise itself. -/
inductive Respelled : List Char → List Char → Prop
  | truth {cs : List Char} {b : Bool} (h : cs.map Char.toLower = (Value.truth b).toList) :
    Respelled cs (Value.truth b).toList
  | whole {cs : List Char} {n : Decimal.Numeral} (hn : n.Spells cs)
      (hvalue : Decimal.inRange n.value = true) :
    Respelled cs (Decimal.render n.value)
  | float {cs : List Char} {x : Binary64} (hx : Binary64.ofText? cs = some x)
      (hwhole : ∀ n : Decimal.Numeral, n.Spells cs → Decimal.inRange n.value = false) :
    Respelled cs x.render
  | text {cs : List Char} (htruth : ∀ b, cs.map Char.toLower ≠ (Value.truth b).toList)
      (hfloat : ¬ Binary64.IsFloat cs) :
    Respelled cs cs

namespace Respelled

variable {cs r : List Char}

/-- Every text becomes something. -/
theorem of_asText (h : (Value.ofText cs).asText = .ok r) : Respelled cs r := by
  rw [Value.ofText_eq] at h
  split_ifs at h with htrue hfalse
  · cases h
    exact .truth (b := true) (Binary64.isWord_iff.mp htrue)
  · cases h
    exact .truth (b := false) (Binary64.isWord_iff.mp hfalse)
  · cases hwhole : Value.wholeOfText? cs with
    | some x =>
      obtain ⟨n, hn, rfl, hr⟩ := Value.wholeOfText?_eq_some_iff.mp hwhole
      rw [hwhole] at h
      cases h
      exact .whole hn hr
    | none =>
      rw [hwhole] at h
      cases hfloat : Binary64.ofText? cs with
      | some x =>
        rw [hfloat] at h
        cases h
        exact .float hfloat (Value.wholeOfText?_eq_none_iff.mp hwhole)
      | none =>
        rw [hfloat] at h
        cases h
        refine .text (fun b hb => ?_) fun hfloat' => ?_
        · cases b
          · exact hfalse (Binary64.isWord_iff.mpr hb)
          · exact htrue (Binary64.isWord_iff.mpr hb)
        · have hsome := Binary64.ofText?_isSome_iff.mpr hfloat'
          rw [hfloat] at hsome
          contradiction

/-- And it is what is asked for. -/
theorem asText (h : Respelled cs r) : (Value.ofText cs).asText = .ok r := by
  cases h with
  | @truth b hb =>
    cases b with
    | true => rw [Value.ofText_eq, if_pos (Binary64.isWord_iff.mpr hb)]; rfl
    | false =>
      have hfalse : ¬ Binary64.isWord cs (Value.truth true) = true := by
        rw [Binary64.isWord_iff, hb]
        decide
      rw [Value.ofText_eq, if_neg hfalse, if_pos (Binary64.isWord_iff.mpr hb)]
      rfl
  | @whole n hn hvalue =>
    rw [Value.ofText_of_ne_truth (Value.ne_truth_of_isFloat (Binary64.isFloat_of_spells hn)),
      Value.wholeOfText?_eq_some_iff.mpr ⟨n, hn, rfl, hvalue⟩]
    rfl
  | @float x hx hwhole =>
    have hfloat : Binary64.IsFloat cs := Binary64.ofText?_isSome_iff.mp (by rw [hx]; rfl)
    rw [Value.ofText_of_ne_truth (Value.ne_truth_of_isFloat hfloat),
      Value.wholeOfText?_eq_none_iff.mpr hwhole, hx]
    rfl
  | text htruth hfloat =>
    have hwhole : Value.wholeOfText? cs = none :=
      Value.wholeOfText?_eq_none_iff.mpr fun n hn => absurd (Binary64.isFloat_of_spells hn) hfloat
    have hnone : Binary64.ofText? cs = none := by
      rw [← Option.not_isSome_iff_eq_none, Binary64.ofText?_isSome_iff]
      exact hfloat
    rw [Value.ofText_of_ne_truth htruth, hwhole, hnone]
    rfl

/-- Every text becomes one text. -/
theorem existsUnique (cs : List Char) : ∃! r, Respelled cs r := by
  obtain ⟨r, hr⟩ : ∃ r, (Value.ofText cs).asText = .ok r := by
    rw [Value.ofText_eq]
    split_ifs
    · exact ⟨_, rfl⟩
    · exact ⟨_, rfl⟩
    · cases Value.wholeOfText? cs <;> cases Binary64.ofText? cs <;> exact ⟨_, rfl⟩
  refine ⟨r, of_asText hr, fun r' hr' => ?_⟩
  have heq := asText hr'
  rw [hr] at heq
  exact (Except.ok.inj heq).symm

/-- It is not empty if the text is not. -/
theorem ne_nil (h : Respelled cs r) (hne : cs ≠ []) : r ≠ [] := by
  cases h with
  | @truth b _ => cases b <;> decide
  | whole _ _ => exact Decimal.render_ne_nil _
  | @float x _ _ => exact Binary64.render_ne_nil x
  | text _ _ => exact hne

/-- A text that holds a character other than those of numbers and words stays as it is. -/
theorem eq_of_not_isMark (h : Respelled cs r) {c : Char} (hc : c ∈ cs)
    (hmark : ¬ Binary64.IsMark c) : r = cs := by
  have hfloat : ¬ Binary64.IsFloat cs := fun hf => hmark (hf.isMark c hc)
  cases h with
  | @truth b hb =>
    have hletters : ∀ c ∈ (Value.truth b).toList, c.isAlpha = true := by
      cases b <;> exact List.all_eq_true.mp rfl
    exact absurd (Binary64.isMark_of_lower hb hletters c hc) hmark
  | whole hn _ => exact absurd (Binary64.isFloat_of_spells hn) hfloat
  | float hx _ => exact absurd (Binary64.ofText?_isSome_iff.mp (by rw [hx]; rfl)) hfloat
  | text _ _ => rfl

/-- A numeral that fits into 64 bits stays as it is if it is plain. -/
theorem eq_iff_of_spells (h : Respelled cs r) {n : Decimal.Numeral} (hn : n.Spells cs)
    (hvalue : Decimal.inRange n.value = true) :
    r = cs ↔ n.sign ≠ ['+'] ∧ (n.digits.head? ≠ some '0' ∨ cs = ['0']) := by
  rw [(existsUnique cs).unique h (.whole hn hvalue), hn.render_eq_iff]

end Respelled

/-! ### The directories of a run -/

/-- With one setting, for the directory of keyrings or for the home, a run uses the directory that
the text becomes. That is the one that was named if the name has a character that stands in no
number or word, such as a slash; a numeral names it only in its plain form. -/
theorem path_settings {s : CommandLine.Surroundings} {env : Environment}
    (hs : s.environment = .ok env) {cs : List Char} (hne : cs ≠ []) :
    (∃! r, Respelled cs r) ∧ ∀ r, Respelled cs r →
      (Only env "HOMEKEYS_KEYRING_SUBDIR".toList cs →
        s.settings = .ok ({ standard with keyringSubdir := r }, s.homes env) ∧
        ({ standard with keyringSubdir := r } : Settings).keyringOptions.subdir = ⟨r⟩) ∧
      (Only env "HOMEKEYS_HOME_DIR".toList cs →
        s.settings = .ok ({ standard with homeDir? := some r }, s.homes env) ∧
        ({ standard with homeDir? := some r } : Settings).homeResolver (s.homes env) =
          HomeResolver.fixed ⟨r⟩) ∧
      ((∃ c ∈ cs, ¬ Binary64.IsMark c) → r = cs) ∧
      ∀ n : Decimal.Numeral, n.Spells cs → Decimal.inRange n.value = true →
        (r = cs ↔ n.sign ≠ ['+'] ∧ (n.digits.head? ≠ some '0' ∨ cs = ['0'])) := by
  refine ⟨Respelled.existsUnique cs, fun r hr => ⟨fun h => ⟨?_, rfl⟩, fun h => ⟨?_, rfl⟩,
    fun ⟨c, hc, hmark⟩ => hr.eq_of_not_isMark hc hmark, fun n hn hvalue =>
      hr.eq_iff_of_spells hn hvalue⟩⟩
  · have hvalid := validate_keyringSubdir (hr.ne_nil hne)
    rw [settings_of_environment hs, h.ofEnvironment_eq .keyringSubdir, Setting.put, hr.asText]
    exact congrArg (Except.map _) hvalid
  · rw [settings_of_environment hs, h.ofEnvironment_eq .homeDir, Setting.put, hr.asText]
    rfl

theorem path_settings_plain :
    (∃ homes, (alone "HOMEKEYS_HOME_DIR" "/srv/home").settings =
      .ok ({ standard with homeDir? := some "/srv/home".toList }, homes)) ∧
    ∃ homes, (alone "HOMEKEYS_KEYRING_SUBDIR" "-42").settings =
      .ok ({ standard with keyringSubdir := "-42".toList }, homes) := by
  constructor
  · have hne : "/srv/home".toList ≠ [] := by decide
    have hrun := path_settings (environment_alone "HOMEKEYS_HOME_DIR" "/srv/home") hne
    obtain ⟨r, hr, -⟩ := hrun.1
    obtain ⟨-, hhome, hslash, -⟩ := hrun.2 r hr
    rw [hslash ⟨'/', by decide, by unfold Binary64.IsMark; decide⟩] at hhome
    exact ⟨_, (hhome (only_alone _ _)).1⟩
  · have hne : "-42".toList ≠ [] := by decide
    have hrun := path_settings (environment_alone "HOMEKEYS_KEYRING_SUBDIR" "-42") hne
    obtain ⟨r, hr, -⟩ := hrun.1
    obtain ⟨hsubdir, -, -, hnumeral⟩ := hrun.2 r hr
    have hspells : (⟨[], ['-'], ['4', '2']⟩ : Decimal.Numeral).Spells "-42".toList :=
      Decimal.spells_of_sign (Or.inr (Or.inr rfl)) (List.all_eq_true.mp rfl) (by decide)
    rw [(hnumeral _ hspells (by decide)).mpr (by decide)] at hsubdir
    exact ⟨_, (hsubdir (only_alone _ _)).1⟩

/-- A directory of keyrings whose name is a number may get another name. -/
theorem keyring_subdir_respelled : ¬ ∀ (s : CommandLine.Surroundings) (env : Environment)
    (cs : List Char), s.environment = .ok env → cs ≠ [] →
    Only env "HOMEKEYS_KEYRING_SUBDIR".toList cs →
    ∃ x, s.settings = .ok x ∧ x.1.keyringSubdir = cs := by
  intro hall
  obtain ⟨x, hx, hsubdir⟩ := hall (alone "HOMEKEYS_KEYRING_SUBDIR" "007") _ _
    (environment_alone _ _) (by decide) (only_alone _ _)
  have honly := only_alone "HOMEKEYS_KEYRING_SUBDIR" "007"
  have htext : (Value.ofText "007".toList).asText = .ok "7".toList := by decide
  rw [settings_of_environment (environment_alone _ _),
    Only.ofEnvironment_eq .keyringSubdir honly, Setting.put, htext] at hx
  cases hx
  exact absurd hsubdir (by decide)

end Settings

end Keyrings
