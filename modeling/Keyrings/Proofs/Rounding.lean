import Keyrings.Proofs.Decimal
import Keyrings.Settings.Value

/-! Whole numbers as floating-point values. Digits without the zeros around them stand for the same
number with a power of ten, and the value nearest to a number from 64 bits keeps the number's
highest 53 binary digits. Made into a count again it is a multiple of 2048, or the largest count
if the number is too large for 64 bits. -/

namespace Keyrings.Binary64

/-! ### Digits -/

theorem natOfDigits_eq (cs : List Char) : natOfDigits cs = Nat.ofDigitChars 10 cs 0 := by
  have hstep : (fun (acc : Nat) (c : Char) => acc * 10 + (c.toNat - 48)) =
      fun (sofar : Nat) (c : Char) => 10 * sofar + (c.toNat - '0'.toNat) := by
    funext acc c
    rw [Nat.mul_comm]
    rfl
  rw [natOfDigits, hstep, Nat.ofDigitChars_eq_foldl]

/-- Zeros in front do not count. -/
theorem ofDigitChars_dropWhile (cs : List Char) :
    Nat.ofDigitChars 10 (cs.dropWhile (· = '0')) 0 = Nat.ofDigitChars 10 cs 0 := by
  induction cs with
  | nil => rfl
  | cons c cs ih =>
    by_cases hc : c = '0'
    · subst hc
      rw [List.dropWhile_cons_of_pos (by simp), ih, Nat.ofDigitChars_cons]
      rfl
    · rw [List.dropWhile_cons_of_neg (by simpa using hc)]

/-- A text with the zeros at its end split off. -/
theorem take_append_zeros (cs : List Char) : ∃ zeros,
    zeros = (cs.reverse.takeWhile (· = '0')).length ∧
      cs = cs.take (cs.length - zeros) ++ List.replicate zeros '0' := by
  refine ⟨_, rfl, ?_⟩
  have hzeros : cs.reverse.takeWhile (· = '0') =
      List.replicate (cs.reverse.takeWhile (· = '0')).length '0' :=
    List.eq_replicate_of_mem fun c hc => by
      simpa using List.all_eq_true.mp List.all_takeWhile c hc
  have hsplit : cs = (cs.reverse.dropWhile (· = '0')).reverse ++
      List.replicate (cs.reverse.takeWhile (· = '0')).length '0' := by
    rw [← List.reverse_replicate, ← hzeros, ← List.reverse_append, List.takeWhile_append_dropWhile,
      List.reverse_reverse]
  generalize (cs.reverse.takeWhile (· = '0')).length = zeros at hsplit ⊢
  generalize (cs.reverse.dropWhile (· = '0')).reverse = front at hsplit
  rw [hsplit]
  simp

/-- The digits that remain, with the power of ten, stand for the same number. -/
theorem stripZeros_eq (cs : List Char) : ∃ zeros : Nat, (stripZeros cs 0).2 = zeros ∧
    Nat.ofDigitChars 10 cs 0 =
      Nat.ofDigitChars 10 (stripZeros cs 0).1 0 * Nat.pow 10 zeros := by
  obtain ⟨zeros, hzeros, hsplit⟩ := take_append_zeros cs
  refine ⟨zeros, by simp [stripZeros, hzeros], ?_⟩
  have hfirst : (stripZeros cs 0).1 = (cs.take (cs.length - zeros)).dropWhile (· = '0') := by
    simp [stripZeros, hzeros]
  rw [hfirst, ofDigitChars_dropWhile, Nat.pow_eq, Nat.mul_comm,
    ← Nat.ofDigitChars_replicate_zero, ← Nat.ofDigitChars_append, ← hsplit]

/-- A number is at least the power of ten that its first digit counts, unless that is zero. -/
theorem pow_le_ofDigitChars {c : Char} {cs : List Char} (hc : c.isDigit = true) (h0 : c ≠ '0') :
    Nat.pow 10 cs.length ≤ Nat.ofDigitChars 10 (c :: cs) 0 := by
  have hpos : 1 ≤ c.toNat - '0'.toNat := by
    have hdigit := (Char.isDigit_iff_toNat.mp hc).1
    have hne : c.toNat ≠ 48 := fun h => h0 (Char.toNat_inj.mp h)
    have hzero : '0'.toNat = 48 := rfl
    omega
  rw [Nat.ofDigitChars_cons, Nat.mul_zero, Nat.zero_add, Nat.ofDigitChars_eq_ofDigitChars_zero,
    Nat.pow_eq]
  exact Nat.le_trans (Nat.le_mul_of_pos_right _ hpos) (Nat.le_add_right _ _)

/-! ### Rounding -/

theorem div_le_roundToEven (n d : Nat) : n / d ≤ roundToEven n d := by
  unfold roundToEven
  simp only
  split_ifs <;> omega

/-- The largest power of two up to a whole number. -/
theorem floorLog2_one {n : Nat} (hn : n ≠ 0) : floorLog2 n 1 = n.log2 := by
  have hle := Nat.log2_self_le hn
  have hone : (1 : Nat).log2 = 0 := by decide
  unfold floorLog2 scale
  by_cases h0 : n.log2 = 0
  · simp only [hone, h0]
    rw [h0] at hle
    simp
    omega
  · have hneg : ¬ (0 : Int) ≤ -((n.log2 : Int) - (1 : Nat).log2) := by
      rw [hone]
      omega
    simp only [hneg, if_false]
    simp [hone, hle]

/-- The count that is nearest to a multiple of a power of two. -/
theorem toCount_finite (mantissa exponent : Nat) :
    (Binary64.finite false mantissa exponent).toCount =
      min maxCount (mantissa * Nat.pow 2 exponent) := by
  simp only [toCount, scale, Int.natCast_nonneg, if_true, Int.toNat_natCast, Bool.false_eq_true,
    if_false, roundHalfUp]
  congr 1
  omega

/-- The value nearest to a whole number from 53 binary digits: its mantissa times a power of two, or
infinity. -/
theorem toCount_ofQuotient {n e : Nat} (hlog : n.log2 = e + 52) :
    (ofQuotient false n 1).toCount = maxCount ∧ maxExponent ≤ e ∨
    (ofQuotient false n 1).toCount =
      min maxCount (roundToEven n (Nat.pow 2 e) * Nat.pow 2 e) := by
  have hn : n ≠ 0 := by
    rintro rfl
    simp at hlog
  have hexponent : max minExponent (floorLog2 n 1 - 52) = (e : Int) := by
    rw [floorLog2_one hn, hlog]
    unfold minExponent
    omega
  have hscale : scale 2 n 1 (-(e : Int)) = (n, Nat.pow 2 e) := by
    unfold scale
    cases e with
    | zero => simp
    | succ e =>
      have hneg : ¬ (0 : Int) ≤ -((e + 1 : Nat) : Int) := by omega
      rw [if_neg hneg, Int.neg_neg, Int.toNat_natCast, Nat.one_mul]
  simp only [ofQuotient, hn, if_false, hexponent, hscale]
  by_cases hcarry : roundToEven n (Nat.pow 2 e) = mantissaBound
  · simp only [hcarry, if_true]
    split_ifs with hmax
    · exact Or.inl ⟨rfl, by omega⟩
    · refine Or.inr ?_
      have hnext : ((e : Int) + 1) = ((e + 1 : Nat) : Int) := rfl
      rw [hnext, toCount_finite, Nat.pow_eq, Nat.pow_eq, Nat.pow_succ]
      unfold mantissaBound
      congr 1
      omega
  · simp only [hcarry, if_false]
    split_ifs with hmax
    · exact Or.inl ⟨rfl, by omega⟩
    · exact Or.inr (toCount_finite _ _)

/-- The count that is made of a whole number beyond 63 bits. -/
def countOf (n : Nat) : Nat := min maxCount (2048 * roundToEven n 2048)

theorem countOf_of_le {n : Nat} (h : 18446744073709551616 ≤ n) : countOf n = maxCount := by
  have hround := div_le_roundToEven n 2048
  unfold countOf maxCount
  omega

/-- It is the number itself for multiples of 2048 and for the largest count. -/
theorem countOf_eq_iff {n : Nat} (h : 9223372036854775808 ≤ n) : countOf n = n ↔
    n < 18446744073709551616 ∧ 2048 ∣ n ∨ n = maxCount := by
  unfold countOf maxCount roundToEven
  simp only
  split_ifs <;> omega

theorem toCount_ofQuotient_of_le {n : Nat} (h : 9223372036854775808 ≤ n) :
    (ofQuotient false n 1).toCount = countOf n := by
  have hn : n ≠ 0 := by omega
  obtain ⟨e, he⟩ : ∃ e, n.log2 = e + 52 := by
    have hlog : 63 ≤ n.log2 := (Nat.le_log2 hn).mpr h
    exact ⟨n.log2 - 52, by omega⟩
  by_cases hsmall : n < 18446744073709551616
  · have hlog : n.log2 = 63 := (Nat.log2_eq_iff hn).mpr ⟨h, hsmall⟩
    obtain rfl : e = 11 := by omega
    rcases toCount_ofQuotient he with ⟨-, hmax⟩ | hcount
    · exact absurd hmax (by decide)
    · rw [hcount, countOf, Nat.mul_comm]
  · have hlarge : 18446744073709551616 ≤ n := by omega
    rw [countOf_of_le hlarge]
    rcases toCount_ofQuotient he with ⟨hcount, -⟩ | hcount
    · exact hcount
    · have hlog : 64 ≤ n.log2 := (Nat.le_log2 hn).mpr hlarge
      have hself := Nat.log2_self_le hn
      rw [he, Nat.pow_add, Nat.mul_comm] at hself
      have hquotient : 2 ^ 52 ≤ n / 2 ^ e :=
        (Nat.le_div_iff_mul_le (Nat.two_pow_pos e)).mpr hself
      have hround := Nat.le_trans hquotient (div_le_roundToEven n (2 ^ e))
      have hpow : 2 ^ 12 ≤ 2 ^ e := Nat.pow_le_pow_right (by decide) (by omega)
      have hproduct := Nat.mul_le_mul hround hpow
      rw [hcount, Nat.pow_eq]
      unfold maxCount
      omega

/-- Digits that stand for a number beyond 63 bits. -/
theorem toCount_ofDigits {cs : List Char} (hdigits : ∀ c ∈ cs, c.isDigit = true)
    (h : 9223372036854775808 ≤ Nat.ofDigitChars 10 cs 0) :
    (ofDigits false (stripZeros cs 0).1 (stripZeros cs 0).2).toCount =
      countOf (Nat.ofDigitChars 10 cs 0) := by
  obtain ⟨zeros, hzeros, hvalue⟩ := stripZeros_eq cs
  obtain ⟨c, ds, hds⟩ : ∃ c ds, (stripZeros cs 0).1 = c :: ds := by
    refine List.exists_cons_of_ne_nil fun hnil => ?_
    rw [hnil, Nat.ofDigitChars_nil, Nat.zero_mul] at hvalue
    omega
  have hc : c.isDigit = true ∧ c ≠ '0' := by
    have hmem : c ∈ (stripZeros cs 0).1 := by rw [hds]; exact List.mem_cons_self ..
    refine ⟨hdigits c (List.mem_of_mem_take ((List.dropWhile_sublist _).subset hmem)), ?_⟩
    have hhead := List.head?_dropWhile_not (· = '0') (cs.take (cs.length -
      (cs.reverse.takeWhile (· = '0')).length))
    have hfirst : (cs.take (cs.length - (cs.reverse.takeWhile (· = '0')).length)).dropWhile
        (· = '0') = c :: ds := hds
    rw [hfirst] at hhead
    simpa using hhead
  have hlow : Nat.pow 10 ds.length ≤ Nat.ofDigitChars 10 (c :: ds) 0 :=
    pow_le_ofDigitChars hc.1 hc.2
  rw [← hds] at hlow
  rw [hzeros]
  unfold ofDigits
  have hfirst : ¬ ((stripZeros cs 0).1.isEmpty = true ∨
      (((stripZeros cs 0).1.length : Int) + (zeros : Int)) < -330) := by
    rw [hds]
    simp
    omega
  rw [if_neg hfirst]
  split_ifs with hhuge
  · have hbig : 10 ^ 20 ≤ Nat.ofDigitChars 10 cs 0 := by
      rw [hds, List.length_cons] at hhuge
      calc 10 ^ 20 ≤ 10 ^ (ds.length + zeros) := Nat.pow_le_pow_right (by decide) (by omega)
        _ = 10 ^ ds.length * 10 ^ zeros := Nat.pow_add ..
        _ ≤ Nat.ofDigitChars 10 (stripZeros cs 0).1 0 * 10 ^ zeros :=
          Nat.mul_le_mul_right _ hlow
        _ = Nat.ofDigitChars 10 cs 0 := hvalue.symm
    rw [countOf_of_le (Nat.le_trans (by decide) hbig)]
    rfl
  · have hscale : scale 10 (natOfDigits (stripZeros cs 0).1) 1 (zeros : Int) =
        (Nat.ofDigitChars 10 cs 0, 1) := by
      rw [scale, if_pos (Int.natCast_nonneg zeros), natOfDigits_eq, Int.toNat_natCast, ← hvalue]
    simp only [hscale]
    exact toCount_ofQuotient_of_le h

end Keyrings.Binary64
