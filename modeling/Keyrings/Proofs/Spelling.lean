import Keyrings.Proofs.Numeral
import Keyrings.Settings.Value
import Mathlib.Data.List.Basic

/-! What texts look like. A numeral is a sign and digits; a decimal number may have a point among or
around its digits and an exponent; and words stand for infinity and for no number. A text with none
of these forms that is no truth value is text and nothing else. -/

namespace Keyrings

namespace Decimal

/-- A numeral is an entire text, with no blanks in front. -/
structure Numeral.Spells (n : Numeral) (cs : List Char) : Prop where
  before : n.Before []
  blanks : n.blanks = []
  text : n.text = cs

namespace Numeral.Spells

variable {n : Numeral} {cs : List Char}

theorem text_eq (h : n.Spells cs) : cs = n.sign ++ n.digits := by
  rw [← h.text, Numeral.text, h.blanks, List.nil_append]

theorem splitSign_eq (h : n.Spells cs) :
    splitSign cs = (decide (n.sign = ['-']), n.digits) := by
  have hsplit := h.before.splitSign_eq
  rwa [List.append_nil, List.append_nil, ← h.text_eq] at hsplit

end Numeral.Spells

theorem spells_of_sign {sign digits : List Char} (hsign : IsSign sign)
    (hdigits : ∀ c ∈ digits, c.isDigit = true) (hne : digits ≠ []) :
    (⟨[], sign, digits⟩ : Numeral).Spells (sign ++ digits) :=
  ⟨⟨by simp, hsign, hdigits, hne, by simp⟩, rfl, rfl⟩

/-- A text is a numeral if digits remain after its sign, and nothing else. -/
theorem exists_spells_iff {cs : List Char} : (∃ n : Numeral, n.Spells cs) ↔
    ¬ ((splitSign cs).2.isEmpty || !(splitSign cs).2.all Char.isDigit) = true := by
  simp only [Bool.not_eq_true, Bool.or_eq_false_iff, List.isEmpty_eq_false_iff,
    Bool.not_eq_false', List.all_eq_true]
  constructor
  · rintro ⟨n, hn⟩
    rw [hn.splitSign_eq]
    exact ⟨hn.before.digits_ne_nil, hn.before.digits⟩
  · rintro ⟨hne, hdigits⟩
    obtain ⟨sign, hsign, hcs⟩ := exists_sign cs
    have hspells := spells_of_sign hsign hdigits hne
    rw [← hcs] at hspells
    exact ⟨_, hspells⟩

/-! ### Plain numerals -/

/-- A digit is written as itself. -/
theorem toDigits_digit {c : Char} (h : c.isDigit = true) :
    Nat.toDigits 10 (c.toNat - '0'.toNat) = [c] := by
  obtain ⟨hlo, hhi⟩ : 48 ≤ c.toNat ∧ c.toNat ≤ 57 := Char.isDigit_iff_toNat.mp h
  have hzero : '0'.toNat = 48 := rfl
  have hchar : (c.toNat - '0'.toNat).digitChar = c := by
    apply Char.toNat_inj.mp
    rw [Nat.toNat_digitChar_of_lt_ten (by omega)]
    omega
  rw [Nat.toDigits_of_lt_base (by omega), hchar]

/-- Digits after a positive number stay as they are. -/
theorem toDigits_ofDigitChars {n : Nat} (hn : 0 < n) {cs : List Char}
    (h : ∀ c ∈ cs, c.isDigit = true) :
    Nat.toDigits 10 (Nat.ofDigitChars 10 cs n) = Nat.toDigits 10 n ++ cs := by
  induction cs generalizing n with
  | nil => simp
  | cons c cs ih =>
    have hc : c.isDigit = true := h c (List.mem_cons_self ..)
    have hlast : c.toNat - '0'.toNat < 10 := by
      have hhi : c.toNat ≤ 57 := (Char.isDigit_iff_toNat.mp hc).2
      have hzero : '0'.toNat = 48 := rfl
      omega
    rw [Nat.ofDigitChars_cons, ih (by omega) fun d hd => h d (List.mem_cons_of_mem c hd),
      ← Nat.toDigits_append_toDigits (by decide) hn hlast, toDigits_digit hc, List.append_assoc]
    rfl

/-- A number other than zero starts with no zero. -/
theorem head_toDigits {n : Nat} (hn : n ≠ 0) : (Nat.toDigits 10 n).head? ≠ some '0' := by
  induction n using Nat.strongRecOn with
  | ind n ih =>
    by_cases hsmall : n < 10
    · rw [Nat.toDigits_of_lt_base hsmall]
      have hall : ∀ k ∈ List.range 10, k ≠ 0 → [k.digitChar].head? ≠ some '0' := by decide
      exact hall n (List.mem_range.mpr hsmall) hn
    · rw [Nat.toDigits_of_base_le (by decide) (by omega),
        List.head?_append_of_ne_nil _ Nat.toDigits_ne_nil]
      exact ih (n / 10) (by omega) (by omega)

/-- Digits are in the form that a number is written in if none but zero starts with zero. -/
theorem toDigits_eq_iff {cs : List Char} (h : ∀ c ∈ cs, c.isDigit = true) (hne : cs ≠ []) :
    Nat.toDigits 10 (Nat.ofDigitChars 10 cs 0) = cs ↔ cs.head? ≠ some '0' ∨ cs = ['0'] := by
  obtain ⟨c, rest, rfl⟩ := List.exists_cons_of_ne_nil hne
  by_cases h0 : c = '0'
  · subst h0
    constructor
    · intro heq
      right
      by_cases hn : Nat.ofDigitChars 10 ('0' :: rest) 0 = 0
      · rw [hn] at heq
        exact heq.symm
      · exact absurd (by rw [heq]; rfl) (head_toDigits hn)
    · rintro (hhead | hsingle)
      · exact absurd rfl hhead
      · rw [hsingle]
        decide
  · have hc : c.isDigit = true := h c (List.mem_cons_self ..)
    have hpos : 0 < c.toNat - '0'.toNat := by
      have hne48 : c.toNat ≠ 48 := fun heq => h0 (Char.toNat_inj.mp heq)
      have hlo : 48 ≤ c.toNat := (Char.isDigit_iff_toNat.mp hc).1
      have hzero : '0'.toNat = 48 := rfl
      omega
    rw [Nat.ofDigitChars_cons, Nat.mul_zero, Nat.zero_add,
      toDigits_ofDigitChars hpos fun d hd => h d (List.mem_cons_of_mem c hd), toDigits_digit hc]
    simp [h0]

theorem render_negative {n : Nat} (hn : n ≠ 0) :
    render (signed true n) = '-' :: Nat.toDigits 10 n := by
  have hneg : -(n : Int) < 0 := by omega
  rw [signed, if_pos rfl, render, if_pos hneg, Int.natAbs_neg, Int.natAbs_natCast]

/-- A numeral is in the form that its value is written in if it has no plus sign, and no zero in
front unless it is zero. -/
theorem Numeral.Spells.render_eq_iff {n : Numeral} {cs : List Char} (h : n.Spells cs) :
    render n.value = cs ↔ n.sign ≠ ['+'] ∧ (n.digits.head? ≠ some '0' ∨ cs = ['0']) := by
  have hplain := toDigits_eq_iff h.before.digits h.before.digits_ne_nil
  have hcs := h.text_eq
  rcases h.before.sign with hsign | hsign | hsign
  · have hrender : render n.value = Nat.toDigits 10 (Nat.ofDigitChars 10 n.digits 0) := by
      rw [value, hsign]
      rfl
    rw [hsign, List.nil_append] at hcs
    rw [hrender, hcs, hplain, hsign]
    simp
  · refine iff_of_false (fun heq => ?_) fun hplus => hplus.1 hsign
    have hmem : '+' ∈ render n.value := by
      rw [heq, hcs, hsign]
      exact List.mem_cons_self ..
    exact absurd (mem_render hmem) (by decide)
  · have hvalue : n.value = signed true (Nat.ofDigitChars 10 n.digits 0) := by
      rw [value, hsign]
      rfl
    rw [hsign] at hcs
    by_cases hzero : Nat.ofDigitChars 10 n.digits 0 = 0
    · -- A negative zero loses its sign, so it is never plain; and it has a zero in front.
      rw [hzero] at hplain hvalue
      have hdigits : n.digits.head? = some '0' := by
        by_contra hhead
        have hsingle := hplain.mpr (Or.inl hhead)
        rw [← hsingle] at hhead
        exact hhead rfl
      have hrender : render n.value = ['0'] := by
        rw [hvalue]
        rfl
      rw [hrender, hcs, hdigits]
      simp
    · have hdigits : n.digits ≠ ['0'] := fun hd => hzero (by rw [hd]; decide)
      rw [hvalue, render_negative hzero, hcs, List.singleton_append, List.cons.injEq, hplain, hsign]
      simp [hdigits]

end Decimal

/-! ### Floating-point values -/

namespace Binary64

open Decimal

theorem isWord_iff {cs : List Char} {word : String} :
    isWord cs word = true ↔ cs.map Char.toLower = word.toList := by
  rw [isWord, beq_iff_eq]

/-- Reading a value takes the sign off like reading a whole number does. -/
theorem ofText?_eq (cs : List Char) : ofText? cs =
    if isWord (splitSign cs).2 "inf" || isWord (splitSign cs).2 "infinity" then
      some (.infinite (splitSign cs).1)
    else if isWord (splitSign cs).2 "nan" then some .notANumber
    else (decimal? (splitSign cs).2).map fun (digits, exponent) =>
      ofDigits (splitSign cs).1 digits exponent := rfl

/-- And so does reading an exponent. -/
theorem exponent?_cons (c : Char) (cs : List Char) : exponent? (c :: cs) =
    if c = 'e' || c = 'E' then
      if (splitSign cs).2.isEmpty || !(splitSign cs).2.all Char.isDigit then none
      else some (if (splitSign cs).1 then -(exponentSize (splitSign cs).2 : Int)
        else exponentSize (splitSign cs).2)
    else none := rfl

/-- An exponent as it is spelled: nothing, or a letter and a numeral. -/
inductive IsExponent : List Char → Prop
  | nil : IsExponent []
  | cons {c : Char} {cs : List Char} {n : Numeral} (hc : c = 'e' ∨ c = 'E') (hn : n.Spells cs) :
    IsExponent (c :: cs)

theorem exponent?_isSome_iff {cs : List Char} : (exponent? cs).isSome ↔ IsExponent cs := by
  cases cs with
  | nil => exact iff_of_true rfl .nil
  | cons c cs =>
    rw [exponent?_cons]
    constructor
    · intro h
      by_cases hc : (c = 'e' || c = 'E') = true
      · rw [if_pos hc] at h
        obtain ⟨n, hn⟩ : ∃ n : Numeral, n.Spells cs := by
          rw [exists_spells_iff]
          intro hno
          rw [if_pos hno] at h
          contradiction
        exact .cons (by simpa using hc) hn
      · rw [if_neg hc] at h
        contradiction
    · rintro (_ | ⟨hc, hn⟩)
      rw [if_pos (by simpa using hc), if_neg (exists_spells_iff.mp ⟨_, hn⟩)]
      rfl

/-- An exponent starts with a letter. -/
theorem IsExponent.head {cs : List Char} (h : IsExponent cs) :
    ∀ c ∈ cs.head?, c = 'e' ∨ c = 'E' := by
  cases h with
  | nil => simp
  | cons hc _ => simpa using hc

theorem IsExponent.stop {cs : List Char} (h : IsExponent cs) :
    ∀ c ∈ cs.head?, c.isDigit = false := by
  intro c hc
  rcases h.head c hc with rfl | rfl <;> decide

/-- A decimal number as it is spelled, without a sign: digits and a point with more digits, one of
them or both, and an exponent. -/
inductive IsDecimal : List Char → Prop
  | whole {whole exponent : List Char} (hwhole : ∀ c ∈ whole, c.isDigit = true)
      (hne : whole ≠ []) (hexponent : IsExponent exponent) :
    IsDecimal (whole ++ exponent)
  | point {whole fraction exponent : List Char} (hwhole : ∀ c ∈ whole, c.isDigit = true)
      (hfraction : ∀ c ∈ fraction, c.isDigit = true) (hne : whole ≠ [] ∨ fraction ≠ [])
      (hexponent : IsExponent exponent) :
    IsDecimal (whole ++ '.' :: (fraction ++ exponent))

/-- The digits after a point, if there is one in front, and the rest. -/
def splitPoint : List Char → List Char × List Char
  | '.' :: rest => (rest.takeWhile Char.isDigit, rest.dropWhile Char.isDigit)
  | rest => ([], rest)

/-- Reading a number in steps: the digits, the point and what follows it, the exponent. -/
theorem decimal?_eq {cs whole fraction rest : List Char}
    (hwhole : cs.takeWhile Char.isDigit = whole)
    (hrest : splitPoint (cs.dropWhile Char.isDigit) = (fraction, rest)) : decimal? cs =
    if whole = [] ∧ fraction = [] then none
    else (exponent? rest).map fun exponent =>
      stripZeros (whole ++ fraction) (exponent - fraction.length) := by
  have hunfold : decimal? cs = (do
      guard !((cs.takeWhile Char.isDigit).isEmpty &&
        (splitPoint (cs.dropWhile Char.isDigit)).1.isEmpty)
      let exponent ← exponent? (splitPoint (cs.dropWhile Char.isDigit)).2
      return stripZeros (cs.takeWhile Char.isDigit ++ (splitPoint (cs.dropWhile Char.isDigit)).1)
        (exponent - (splitPoint (cs.dropWhile Char.isDigit)).1.length)) := rfl
  rw [hunfold, hwhole, hrest]
  by_cases hempty : whole = [] ∧ fraction = []
  · obtain ⟨rfl, rfl⟩ := hempty
    rfl
  · have hfull : (whole.isEmpty && fraction.isEmpty) = false := by
      rw [← Bool.not_eq_true, Bool.and_eq_true, List.isEmpty_iff, List.isEmpty_iff]
      exact hempty
    rw [if_neg hempty, hfull]
    cases exponent? rest <;> rfl

theorem splitPoint_point {rest fraction after : List Char}
    (htake : rest.takeWhile Char.isDigit = fraction)
    (hdrop : rest.dropWhile Char.isDigit = after) :
    splitPoint ('.' :: rest) = (fraction, after) := by
  rw [splitPoint, htake, hdrop]

theorem splitPoint_cases (rest : List Char) :
    (∃ cs, rest = '.' :: cs ∧
      splitPoint rest = (cs.takeWhile Char.isDigit, cs.dropWhile Char.isDigit)) ∨
    splitPoint rest = ([], rest) := by
  unfold splitPoint
  split
  · exact Or.inl ⟨_, rfl, rfl⟩
  · exact Or.inr rfl

theorem IsExponent.splitPoint_eq {cs : List Char} (h : IsExponent cs) :
    splitPoint cs = ([], cs) := by
  rcases splitPoint_cases cs with ⟨rest, rfl, -⟩ | hpoint
  · rcases h.head '.' rfl with hc | hc <;> exact absurd hc (by decide)
  · exact hpoint

theorem decimal?_isSome {cs whole fraction rest : List Char}
    (hwhole : cs.takeWhile Char.isDigit = whole)
    (hrest : splitPoint (cs.dropWhile Char.isDigit) = (fraction, rest)) :
    (decimal? cs).isSome ↔ (whole ≠ [] ∨ fraction ≠ []) ∧ IsExponent rest := by
  rw [decimal?_eq hwhole hrest, ← not_and_or, ← exponent?_isSome_iff]
  split_ifs with hempty
  · exact iff_of_false Bool.false_ne_true fun h => h.1 hempty
  · rw [Option.isSome_map]
    exact (and_iff_right hempty).symm

/-- A number is read off a spelling of a decimal number and off nothing else. -/
theorem decimal?_isSome_iff {cs : List Char} : (decimal? cs).isSome ↔ IsDecimal cs := by
  constructor
  · intro h
    have hwhole : ∀ c ∈ cs.takeWhile Char.isDigit, c.isDigit = true :=
      fun c hc => List.mem_takeWhile_imp hc
    rw [← List.takeWhile_append_dropWhile (p := Char.isDigit) (l := cs)]
    rcases splitPoint_cases (cs.dropWhile Char.isDigit) with ⟨rest, hdrop, hpoint⟩ | hpoint
    · obtain ⟨hne, hexponent⟩ := (decimal?_isSome rfl hpoint).mp h
      rw [hdrop, ← List.takeWhile_append_dropWhile (p := Char.isDigit) (l := rest)]
      exact .point hwhole (fun c hc => List.mem_takeWhile_imp hc) hne hexponent
    · obtain ⟨hne, hexponent⟩ := (decimal?_isSome rfl hpoint).mp h
      exact .whole hwhole (by simpa using hne) hexponent
  · rintro (⟨hwhole, hne, hexponent⟩ | ⟨hwhole, hfraction, hne, hexponent⟩)
    · obtain ⟨htake, hdrop⟩ := takeWhile_append_of_stop hwhole hexponent.stop
      exact (decimal?_isSome htake (by rw [hdrop, hexponent.splitPoint_eq])).mpr
        ⟨Or.inl hne, hexponent⟩
    · have hstop : ∀ rest : List Char, ∀ c ∈ ('.' :: rest).head?, c.isDigit = false := by
        intro rest c hc
        cases hc
        decide
      obtain ⟨htake, hdrop⟩ := takeWhile_append_of_stop hwhole (hstop _)
      obtain ⟨htake', hdrop'⟩ := takeWhile_append_of_stop hfraction hexponent.stop
      exact (decimal?_isSome htake (by rw [hdrop, splitPoint_point htake' hdrop'])).mpr
        ⟨hne, hexponent⟩

def words : List String := ["inf", "infinity", "nan"]

theorem isAlpha_of_mem_words {word : String} (h : word ∈ words) :
    ∀ c ∈ word.toList, c.isAlpha = true := by
  have hall : words.all (fun word => word.toList.all Char.isAlpha) = true := by decide
  exact List.all_eq_true.mp (List.all_eq_true.mp hall word h)

/-- A floating-point value as it is spelled: a sign, and a word in any case or a decimal number. -/
inductive IsFloat : List Char → Prop
  | word {sign body : List Char} {word : String} (hsign : IsSign sign) (hword : word ∈ words)
      (hbody : body.map Char.toLower = word.toList) :
    IsFloat (sign ++ body)
  | decimal {sign body : List Char} (hsign : IsSign sign) (hbody : IsDecimal body) :
    IsFloat (sign ++ body)

theorem ofText?_isSome {cs : List Char} : (ofText? cs).isSome ↔
    (∃ word ∈ words, (splitSign cs).2.map Char.toLower = word.toList) ∨
      IsDecimal (splitSign cs).2 := by
  rw [ofText?_eq, ← decimal?_isSome_iff]
  simp only [words, List.mem_cons, List.not_mem_nil, or_false, exists_eq_or_imp, exists_eq_left,
    ← isWord_iff]
  generalize (splitSign cs).2 = body
  cases isWord body "inf" <;> cases isWord body "infinity" <;> cases isWord body "nan" <;> simp

/-- A decimal number starts with a digit or with a point. -/
theorem IsDecimal.head {cs : List Char} (h : IsDecimal cs) :
    ∀ c ∈ cs.head?, c.isDigit = true ∨ c = '.' := by
  intro c hc
  cases h with
  | @whole whole exponent hwhole hne hexponent =>
    obtain ⟨d, ds, rfl⟩ := List.exists_cons_of_ne_nil hne
    cases hc
    exact Or.inl (hwhole _ (List.mem_cons_self ..))
  | @point whole fraction exponent hwhole hfraction hne hexponent =>
    cases whole with
    | nil =>
      cases hc
      exact Or.inr rfl
    | cons d ds =>
      cases hc
      exact Or.inl (hwhole _ (List.mem_cons_self ..))

theorem IsDecimal.no_sign {cs : List Char} (h : IsDecimal cs) :
    ∀ c ∈ cs.head?, c ≠ '+' ∧ c ≠ '-' := by
  intro c hc
  constructor <;> (rintro rfl; exact absurd (h.head _ hc) (by decide))

theorem no_sign_of_word {body : List Char} {word : String} (hword : word ∈ words)
    (hbody : body.map Char.toLower = word.toList) : ∀ c ∈ body.head?, c ≠ '+' ∧ c ≠ '-' := by
  intro c hc
  have hlower : c.toLower ∈ word.toList := by
    rw [← hbody]
    exact List.mem_map_of_mem (List.mem_of_head? hc)
  have hletter := isAlpha_of_mem_words hword _ hlower
  constructor <;> (rintro rfl; exact absurd hletter (by decide))

/-- A value is read off its spellings and off nothing else. -/
theorem ofText?_isSome_iff {cs : List Char} : (ofText? cs).isSome ↔ IsFloat cs := by
  rw [ofText?_isSome]
  constructor
  · intro h
    obtain ⟨sign, hsign, hcs⟩ := exists_sign cs
    rw [hcs]
    rcases h with ⟨word, hword, hbody⟩ | hbody
    · exact .word hsign hword hbody
    · exact .decimal hsign hbody
  · rintro (⟨hsign, hword, hbody⟩ | ⟨hsign, hbody⟩)
    · rw [splitSign_append hsign (no_sign_of_word hword hbody)]
      exact Or.inl ⟨_, hword, hbody⟩
    · rw [splitSign_append hsign hbody.no_sign]
      exact Or.inr hbody

/-! ### Characters -/

/-- A digit is no letter, in any case. -/
theorem toLower_digit {c : Char} (h : c.isDigit = true) : c.toLower = c := by
  have hall : ∀ k ∈ List.range 58, 48 ≤ k → (Char.ofNat k).toLower = Char.ofNat k := by decide
  obtain ⟨hlo, hhi⟩ : 48 ≤ c.toNat ∧ c.toNat ≤ 57 := Char.isDigit_iff_toNat.mp h
  have hc := hall c.toNat (List.mem_range.mpr (by omega)) hlo
  rwa [Char.ofNat_toNat] at hc

theorem isAlpha_iff {c : Char} : c.isAlpha = true ↔ c.isUpper = true ∨ c.isLower = true :=
  Bool.or_eq_true_iff

/-- A letter is no digit. -/
theorem not_isDigit_of_isAlpha {c : Char} (h : c.isAlpha = true) : c.isDigit = false := by
  rw [← Bool.not_eq_true, Char.isDigit_iff_toNat]
  change ¬ (48 ≤ c.toNat ∧ c.toNat ≤ 57)
  rcases isAlpha_iff.mp h with hupper | hlower
  · have hbounds : 65 ≤ c.toNat ∧ c.toNat ≤ 90 := of_decide_eq_true hupper
    omega
  · have hfrom : 97 ≤ c.toNat := of_decide_eq_true (Bool.and_eq_true_iff.mp hlower).1
    omega

/-- The characters that a value starts with in lower case: a sign, a digit or a point, or the letter
of a word. -/
def IsStart (c : Char) : Prop := c.isDigit = true ∨ c ∈ ['+', '-', '.', 'i', 'n']

theorem isStart_append {sign body : List Char} (hsign : IsSign sign)
    (hbody : ∀ c ∈ (body.map Char.toLower).head?, IsStart c) :
    ∀ c ∈ ((sign ++ body).map Char.toLower).head?, IsStart c := by
  intro c hc
  rcases hsign with rfl | rfl | rfl
  · exact hbody c hc
  · cases hc
    exact Or.inr (by decide)
  · cases hc
    exact Or.inr (by decide)

theorem IsDecimal.isStart {cs : List Char} (h : IsDecimal cs) :
    ∀ c ∈ (cs.map Char.toLower).head?, IsStart c := by
  intro c hc
  cases cs with
  | nil => contradiction
  | cons d ds =>
    cases hc
    rcases h.head d rfl with hdigit | rfl
    · rw [toLower_digit hdigit]
      exact Or.inl hdigit
    · exact Or.inr (by decide)

theorem IsFloat.isStart {cs : List Char} (h : IsFloat cs) :
    ∀ c ∈ (cs.map Char.toLower).head?, IsStart c := by
  cases h with
  | word hsign hword hbody =>
    refine isStart_append hsign fun c hc => Or.inr ?_
    simp only [words, List.mem_cons, List.not_mem_nil, or_false] at hword
    rw [hbody] at hc
    rcases hword with rfl | rfl | rfl <;> (cases hc; decide)
  | decimal hsign hbody => exact isStart_append hsign hbody.isStart

/-- Every numeral is a decimal number with a sign. -/
theorem isFloat_of_spells {n : Numeral} {cs : List Char} (h : n.Spells cs) :
    IsFloat cs := by
  rw [h.text_eq, ← List.append_nil n.digits]
  exact .decimal h.before.sign (.whole h.before.digits h.before.digits_ne_nil .nil)

/-- The characters of numbers and words: letters, digits, signs and the point. -/
def IsMark (c : Char) : Prop := c.isAlphanum = true ∨ c ∈ ['+', '-', '.']

theorem isMark_of_isDigit {c : Char} (h : c.isDigit = true) : IsMark c :=
  Or.inl (by rw [Char.isAlphanum, h, Bool.or_true])

/-- What is a letter in lower case is a letter. -/
theorem isMark_of_toLower {c : Char} (h : c.toLower.isAlpha = true) : IsMark c := by
  have halpha : c.isAlpha = true := by
    unfold Char.toLower at h
    split at h
    · rename_i hupper
      exact isAlpha_iff.mpr (Or.inl (decide_eq_true hupper))
    · exact h
  exact Or.inl (by rw [Char.isAlphanum, halpha, Bool.true_or])

theorem isMark_of_sign {sign : List Char} (h : IsSign sign) : ∀ c ∈ sign, IsMark c := by
  rcases h with rfl | rfl | rfl <;> simp [IsMark]

theorem isMark_of_spells {n : Numeral} {cs : List Char} (h : n.Spells cs) :
    ∀ c ∈ cs, IsMark c := by
  rw [h.text_eq]
  intro c hc
  rcases List.mem_append.mp hc with hc | hc
  · exact isMark_of_sign h.before.sign c hc
  · exact isMark_of_isDigit (h.before.digits c hc)

theorem isMark_of_lower {cs : List Char} {word : String} (h : cs.map Char.toLower = word.toList)
    (hword : ∀ c ∈ word.toList, c.isAlpha = true) : ∀ c ∈ cs, IsMark c := by
  intro c hc
  have hmem : c.toLower ∈ word.toList := by
    rw [← h]
    exact List.mem_map_of_mem hc
  exact isMark_of_toLower (hword _ hmem)

theorem IsExponent.isMark {cs : List Char} (h : IsExponent cs) : ∀ c ∈ cs, IsMark c := by
  intro c hmem
  cases h with
  | nil => contradiction
  | cons hc hn =>
    rcases List.mem_cons.mp hmem with rfl | hmem
    · rcases hc with rfl | rfl <;> exact Or.inl (by decide)
    · exact isMark_of_spells hn c hmem

theorem IsDecimal.isMark {cs : List Char} (h : IsDecimal cs) : ∀ c ∈ cs, IsMark c := by
  intro c hc
  cases h with
  | whole hwhole hne hexponent =>
    rcases List.mem_append.mp hc with hc | hc
    · exact isMark_of_isDigit (hwhole c hc)
    · exact hexponent.isMark c hc
  | point hwhole hfraction hne hexponent =>
    simp only [List.mem_append, List.mem_cons] at hc
    rcases hc with hc | rfl | hc | hc
    · exact isMark_of_isDigit (hwhole c hc)
    · exact Or.inr (by decide)
    · exact isMark_of_isDigit (hfraction c hc)
    · exact hexponent.isMark c hc

/-- Nothing else stands in a value. -/
theorem IsFloat.isMark {cs : List Char} (h : IsFloat cs) : ∀ c ∈ cs, IsMark c := by
  intro c hc
  cases h with
  | word hsign hword hbody =>
    rcases List.mem_append.mp hc with hc | hc
    · exact isMark_of_sign hsign c hc
    · exact isMark_of_lower hbody (isAlpha_of_mem_words hword) c hc
  | decimal hsign hbody =>
    rcases List.mem_append.mp hc with hc | hc
    · exact isMark_of_sign hsign c hc
    · exact hbody.isMark c hc

end Binary64

/-! ### Settings -/

namespace Settings.Value

open Decimal

def truth (b : Bool) : String := if b then "true" else "false"

theorem wholeOfText?_eq (cs : List Char) : wholeOfText? cs =
    if (splitSign cs).2.isEmpty || !(splitSign cs).2.all Char.isDigit then none
    else pushAll (splitSign cs).1 0 (splitSign cs).2 := rfl

/-- A numeral is a whole number if its value fits into 64 bits. -/
theorem wholeOfText?_of_spells {n : Numeral} {cs : List Char} (h : n.Spells cs) :
    wholeOfText? cs = if inRange n.value then some n.value else none := by
  rw [wholeOfText?_eq, if_neg (exists_spells_iff.mp ⟨n, h⟩), h.splitSign_eq]
  exact pushAll_digits _ h.before.digits

/-- Nothing else is a whole number. -/
theorem wholeOfText?_eq_some_iff {cs : List Char} {x : Int} : wholeOfText? cs = some x ↔
    ∃ n : Numeral, n.Spells cs ∧ n.value = x ∧ inRange x = true := by
  constructor
  · intro h
    obtain ⟨n, hn⟩ : ∃ n : Numeral, n.Spells cs := by
      rw [exists_spells_iff]
      intro hno
      rw [wholeOfText?_eq, if_pos hno] at h
      contradiction
    rw [wholeOfText?_of_spells hn] at h
    split_ifs at h with hr
    cases h
    exact ⟨n, hn, rfl, hr⟩
  · rintro ⟨n, hn, rfl, hr⟩
    rw [wholeOfText?_of_spells hn, if_pos hr]

/-- The cases of a text, in the order in which they are tried. -/
theorem ofText_eq (cs : List Char) : ofText cs =
    if Binary64.isWord cs (truth true) then .flag true
    else if Binary64.isWord cs (truth false) then .flag false
    else ((wholeOfText? cs).map whole).getD
      (((Binary64.ofText? cs).map float).getD (.text cs)) := by
  unfold ofText truth
  cases wholeOfText? cs <;> cases Binary64.ofText? cs <;> rfl

theorem wholeOfText?_eq_none_iff {cs : List Char} : wholeOfText? cs = none ↔
    ∀ n : Numeral, n.Spells cs → inRange n.value = false := by
  rw [Option.eq_none_iff_forall_ne_some]
  constructor
  · intro h n hn
    by_contra hr
    exact h n.value (wholeOfText?_eq_some_iff.mpr ⟨n, hn, rfl, by simpa using hr⟩)
  · intro h x hx
    obtain ⟨n, hn, rfl, hr⟩ := wholeOfText?_eq_some_iff.mp hx
    rw [h n hn] at hr
    contradiction

/-- A value that is spelled as a number is no truth value. -/
theorem ne_truth_of_isFloat {cs : List Char} (h : Binary64.IsFloat cs) (b : Bool) :
    cs.map Char.toLower ≠ (truth b).toList := by
  intro heq
  have hstart := h.isStart
  rw [heq] at hstart
  cases b
  · exact absurd (hstart 'f' rfl) (by unfold Binary64.IsStart; decide)
  · exact absurd (hstart 't' rfl) (by unfold Binary64.IsStart; decide)

theorem ofText_of_ne_truth {cs : List Char} (h : ∀ b, cs.map Char.toLower ≠ (truth b).toList) :
    ofText cs = ((wholeOfText? cs).map whole).getD
      (((Binary64.ofText? cs).map float).getD (.text cs)) := by
  rw [ofText_eq, if_neg fun htrue => h true (Binary64.isWord_iff.mp htrue),
    if_neg fun hfalse => h false (Binary64.isWord_iff.mp hfalse)]

end Settings.Value

end Keyrings
