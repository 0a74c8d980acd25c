import Keyrings.Proofs.Rounding
import Keyrings.Proofs.Settings
import Keyrings.Proofs.Spelling

/-! Counts that are set in plain decimal digits. The number of attempts is exact or refused, as it
has to fit into 32 bits. The time of a sleep in milliseconds is exact in 63 bits; from there on the
digits are taken for a floating-point value, and no number is refused: the count that is made of the
value is another one, unless the number is a multiple of 2048 or is the largest count. -/

namespace Keyrings.Settings

namespace Value

/-- The count that plain digits for a number give. -/
def countOfDigits (n : Nat) : Nat :=
  if n < 9223372036854775808 then n else Binary64.countOf n

theorem countOfDigits_eq_iff {n : Nat} : countOfDigits n = n ↔ n < 9223372036854775808 ∨
    n < 18446744073709551616 ∧ 2048 ∣ n ∨ n = Binary64.maxCount := by
  unfold countOfDigits
  split_ifs with h
  · exact iff_of_true rfl (Or.inl h)
  · rw [Binary64.countOf_eq_iff (by omega), or_iff_right h]

/-- In 64 bits the count is not far from the number. -/
theorem countOfDigits_near {n : Nat} (h : n < 18446744073709551616) :
    countOfDigits n ≤ n + 1024 ∧ n ≤ countOfDigits n + 1024 := by
  unfold countOfDigits Binary64.countOf Binary64.maxCount Binary64.roundToEven
  simp only
  split_ifs <;> omega

theorem countOfDigits_of_le {n : Nat} (h : 18446744073709551616 ≤ n) :
    countOfDigits n = Binary64.maxCount := by
  rw [countOfDigits, if_neg (by omega), Binary64.countOf_of_le h]

/-- A number that fits into 32 bits is the count, and no other number is taken for one. -/
theorem countOfDigits_lt_iff {n : Nat} : countOfDigits n < 4294967296 ↔ n < 4294967296 := by
  unfold countOfDigits
  split_ifs with h
  · rfl
  · have hround := Binary64.div_le_roundToEven n 2048
    unfold Binary64.countOf Binary64.maxCount
    omega

section Digits

variable {cs : List Char} (hne : cs ≠ []) (hdigits : ∀ c ∈ cs, c.isDigit = true)
include hne hdigits

theorem spells_digits : (⟨[], [], cs⟩ : Decimal.Numeral).Spells cs :=
  Decimal.spells_of_sign (Or.inl rfl) hdigits hne

/-- Digits are no word, as a word has letters. -/
theorem isWord_digits {word : String} (hword : word ∈ Binary64.words) :
    Binary64.isWord cs word = false := by
  obtain ⟨c, rest, rfl⟩ := List.exists_cons_of_ne_nil hne
  have hc : c.isDigit = true := hdigits c (List.mem_cons_self ..)
  rw [Binary64.isWord, beq_eq_false_iff_ne]
  intro heq
  have hmem : c ∈ word.toList := by
    rw [← heq, List.map_cons, Binary64.toLower_digit hc]
    exact List.mem_cons_self ..
  have hletter := Binary64.isAlpha_of_mem_words hword c hmem
  rw [Binary64.not_isDigit_of_isAlpha hletter] at hc
  contradiction

/-- Digits are a whole number if it fits into 64 bits with a sign. -/
theorem wholeOfText?_digits : wholeOfText? cs =
    if Nat.ofDigitChars 10 cs 0 < 9223372036854775808 then
      some (Nat.ofDigitChars 10 cs 0 : Int) else none := by
  have hrange : Decimal.inRange (Nat.ofDigitChars 10 cs 0 : Int) = true ↔
      Nat.ofDigitChars 10 cs 0 < 9223372036854775808 := by
    rw [Decimal.inRange_iff]
    omega
  have hvalue : Decimal.Numeral.value ⟨[], [], cs⟩ = (Nat.ofDigitChars 10 cs 0 : Int) := rfl
  rw [wholeOfText?_of_spells (spells_digits hne hdigits), hvalue]
  simp only [hrange]

/-- And they are a floating-point value in any case. -/
theorem ofText?_digits : Binary64.ofText? cs = some
    (Binary64.ofDigits false (Binary64.stripZeros cs 0).1 (Binary64.stripZeros cs 0).2) := by
  have hend : ∀ c ∈ ([] : List Char).head?, c.isDigit = false := by simp
  obtain ⟨htake, hdrop⟩ := Decimal.takeWhile_append_of_stop hdigits hend
  rw [List.append_nil] at htake hdrop
  have hpoint : Binary64.splitPoint (cs.dropWhile Char.isDigit) = ([], []) := by
    rw [hdrop]
    rfl
  have hdecimal : Binary64.decimal? cs = some (Binary64.stripZeros cs 0) := by
    rw [Binary64.decimal?_eq htake hpoint, if_neg fun h => hne h.1, List.append_nil]
    rfl
  have hword : ∀ word ∈ Binary64.words, Binary64.isWord cs word = false :=
    fun _ => isWord_digits hne hdigits
  simp only [Binary64.words, List.forall_mem_cons, List.not_mem_nil, false_imp_iff,
    implies_true, and_true] at hword
  obtain ⟨hinf, hinfinity, hnan⟩ := hword
  rw [Binary64.ofText?_eq, (spells_digits hne hdigits).splitSign_eq, hinf, hinfinity, hnan, hdecimal]
  rfl

theorem asCount_digits :
    (ofText cs).asCount = .ok (countOfDigits (Nat.ofDigitChars 10 cs 0)) := by
  have hfloat := Binary64.isFloat_of_spells (spells_digits hne hdigits)
  rw [ofText_of_ne_truth (ne_truth_of_isFloat hfloat), wholeOfText?_digits hne hdigits,
    ofText?_digits hne hdigits]
  by_cases hsmall : Nat.ofDigitChars 10 cs 0 < 9223372036854775808
  · rw [if_pos hsmall, countOfDigits, if_pos hsmall]
    simp [asCount]
  · rw [if_neg hsmall, countOfDigits, if_neg hsmall,
      ← Binary64.toCount_ofDigits hdigits (by omega)]
    rfl

theorem asSmallCount_digits : (ofText cs).asSmallCount =
    if Nat.ofDigitChars 10 cs 0 < 4294967296 then .ok (Nat.ofDigitChars 10 cs 0)
    else .error (.tooLarge (countOfDigits (Nat.ofDigitChars 10 cs 0))) := by
  rw [asSmallCount, asCount_digits hne hdigits]
  simp only [countOfDigits_lt_iff]
  split_ifs with hsmall
  · rw [countOfDigits_eq_iff.mpr (Or.inl (by omega))]
  · rfl

end Digits

end Value

/-- With one setting in plain digits, for the number of attempts or for the sleep after each, a run
refuses a number of attempts beyond 32 bits and takes every other one as it is. It takes every time:
as it is in 63 bits, within 1024 of it in 64 bits, and from there on the largest count. -/
theorem lock_numbers {s : CommandLine.Surroundings} {env : Environment}
    (hs : s.environment = .ok env) {cs : List Char} (hne : cs ≠ [])
    (hdigits : ∀ c ∈ cs, c.isDigit = true) {n : Nat} (hn : n = Nat.ofDigitChars 10 cs 0) :
    (Only env "HOMEKEYS_LOCK_MAX_TIMEOUTS".toList cs →
      (n < 4294967296 →
        s.settings = .ok ({ standard with lockMaxTimeouts := n }, s.homes env) ∧
        ({ standard with lockMaxTimeouts := n } : Settings).keyringOptions.policy =
          { LockPolicy.standard with maxTimeouts := n }) ∧
      (4294967296 ≤ n → s.settings =
        .error (.mismatch "lock_max_timeouts" (.tooLarge (Value.countOfDigits n))))) ∧
    (Only env "HOMEKEYS_LOCK_TIMEOUT_MS".toList cs →
      ∃ millis, s.settings = .ok ({ standard with lockTimeoutMillis := millis }, s.homes env) ∧
        ({ standard with lockTimeoutMillis := millis } : Settings).keyringOptions.policy =
          { LockPolicy.standard with timeout := Duration.ofMillis millis } ∧
        (millis = n ↔ n < 9223372036854775808 ∨
          n < 18446744073709551616 ∧ 2048 ∣ n ∨ n = 18446744073709551615) ∧
        (n < 18446744073709551616 → millis ≤ n + 1024 ∧ n ≤ millis + 1024) ∧
        (18446744073709551616 ≤ n → millis = 18446744073709551615)) := by
  subst hn
  constructor
  · intro h
    rw [settings_of_environment hs, h.ofEnvironment_eq .lockMaxTimeouts, Setting.put,
      Value.asSmallCount_digits hne hdigits]
    refine ⟨fun hsmall => ⟨?_, rfl⟩, fun hlarge => ?_⟩
    · rw [if_pos hsmall]
      rfl
    · rw [if_neg (by omega)]
      rfl
  · intro h
    refine ⟨_, ?_, rfl, Value.countOfDigits_eq_iff, Value.countOfDigits_near,
      Value.countOfDigits_of_le⟩
    rw [settings_of_environment hs, h.ofEnvironment_eq .lockTimeoutMillis, Setting.put,
      Value.asCount_digits hne hdigits]
    rfl

theorem lock_numbers_small :
    (∃ homes, (alone "HOMEKEYS_LOCK_MAX_TIMEOUTS" "4").settings =
      .ok ({ standard with lockMaxTimeouts := 4 }, homes)) ∧
    ∃ homes, (alone "HOMEKEYS_LOCK_TIMEOUT_MS" "10").settings =
      .ok ({ standard with lockTimeoutMillis := 10 }, homes) := by
  constructor
  · have hrun := lock_numbers (environment_alone "HOMEKEYS_LOCK_MAX_TIMEOUTS" "4")
      (by decide : "4".toList ≠ []) (List.all_eq_true.mp rfl)
      (by decide : 4 = Nat.ofDigitChars 10 "4".toList 0)
    exact ⟨_, ((hrun.1 (only_alone _ _)).1 (by decide)).1⟩
  · have hrun := lock_numbers (environment_alone "HOMEKEYS_LOCK_TIMEOUT_MS" "10")
      (by decide : "10".toList ≠ []) (List.all_eq_true.mp rfl)
      (by decide : 10 = Nat.ofDigitChars 10 "10".toList 0)
    obtain ⟨millis, hsettings, -, hexact, -⟩ := hrun.2 (only_alone _ _)
    rw [hexact.mpr (Or.inl (by decide))] at hsettings
    exact ⟨_, hsettings⟩

/-- A time beyond 63 bits may become another one. -/
theorem lock_timeout_rounded : ¬ ∀ (s : CommandLine.Surroundings) (env : Environment)
    (cs : List Char), s.environment = .ok env → cs ≠ [] → (∀ c ∈ cs, c.isDigit = true) →
    Only env "HOMEKEYS_LOCK_TIMEOUT_MS".toList cs →
    (∃ fault, s.settings = .error fault) ∨
      ∃ x, s.settings = .ok x ∧ x.1.lockTimeoutMillis = Nat.ofDigitChars 10 cs 0 := by
  intro hall
  have hs := environment_alone "HOMEKEYS_LOCK_TIMEOUT_MS" "9223372036854775809"
  have honly := only_alone "HOMEKEYS_LOCK_TIMEOUT_MS" "9223372036854775809"
  have hdigits : ∀ c ∈ "9223372036854775809".toList, c.isDigit = true := List.all_eq_true.mp rfl
  have hcount : (Value.ofText "9223372036854775809".toList).asCount = .ok 9223372036854775808 := by
    rw [Value.asCount_digits (by decide) hdigits]
    decide
  have hsettings := settings_of_environment hs
  rw [Only.ofEnvironment_eq .lockTimeoutMillis honly, Setting.put, hcount] at hsettings
  rcases hall _ _ _ hs (by decide) hdigits honly with ⟨fault, hfault⟩ | ⟨x, hx, hexact⟩
  · rw [hsettings] at hfault
    cases hfault
  · rw [hsettings] at hx
    cases hx
    exact absurd hexact (by decide)

end Keyrings.Settings
