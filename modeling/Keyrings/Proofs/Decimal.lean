import Keyrings.Decimal
import Mathlib.Tactic.SplitIfs

/-! The value of a decimal number. Digits are taken one at a time and each partial result has to
fit; since partial results only grow away from zero, they all fit exactly when the last one does.
Hence the plain form of a 64-bit integer reads back, whatever follows it. -/

namespace Keyrings.Decimal

theorem inRange_iff {x : Int} :
    inRange x = true ↔ -9223372036854775808 ≤ x ∧ x ≤ 9223372036854775807 := by
  simp only [inRange, Bool.and_eq_true, decide_eq_true_eq]

theorem inRange_int32 (x : Int32) : inRange x.toInt = true := by
  have hlo := x.le_toInt
  have hhi := x.toInt_lt
  rw [inRange_iff]
  omega

theorem inRange_int64 (x : Int64) : inRange x.toInt = true := by
  have hlo := x.le_toInt
  have hhi := x.toInt_lt
  rw [inRange_iff]
  omega

/-- The integer with a sign and an absolute value. -/
def signed (negative : Bool) (n : Nat) : Int := if negative then -n else n

theorem digitValue_eq {c : Char} (h : c.isDigit = true) :
    digitValue c = ((c.toNat - 48 : Nat) : Int) := by
  have h48 : 48 ≤ c.toNat := by
    simp only [Char.isDigit, ge_iff_le, Bool.and_eq_true, decide_eq_true_eq] at h
    exact h.1
  unfold digitValue
  omega

/-- Partial results that are closer to zero fit too. -/
theorem inRange_signed_of_le {negative : Bool} {m n : Nat} (h : m ≤ n)
    (hn : inRange (signed negative n) = true) : inRange (signed negative m) = true := by
  unfold signed inRange at *
  cases negative <;> simp at hn ⊢ <;> omega

theorem push_signed (negative : Bool) (n : Nat) {c : Char} (h : c.isDigit = true) :
    push negative (signed negative n) c =
      if inRange (signed negative (10 * n + (c.toNat - 48))) then
        some (signed negative (10 * n + (c.toNat - 48))) else none := by
  have tens : signed negative n * 10 = signed negative (10 * n) := by
    unfold signed
    split <;> push_cast <;> omega
  have next : (if negative then signed negative (10 * n) - digitValue c
      else signed negative (10 * n) + digitValue c) =
        signed negative (10 * n + (c.toNat - 48)) := by
    rw [digitValue_eq h]
    unfold signed
    cases negative
    · simp
    · simp
      omega
  simp only [push, tens, next]
  split_ifs with hTens hNext hNext
  · rfl
  · rfl
  · exact absurd (inRange_signed_of_le (Nat.le_add_right _ _) hNext) hTens
  · rfl

theorem le_ofDigitChars (n : Nat) (cs : List Char) : n ≤ Nat.ofDigitChars 10 cs n := by
  induction cs generalizing n with
  | nil => simp
  | cons c cs ih =>
    rw [Nat.ofDigitChars_cons]
    have := ih (10 * n + (c.toNat - '0'.toNat))
    omega

/-- Taking digits one at a time fails exactly when their value does not fit. -/
theorem pushAll_signed (negative : Bool) {n : Nat} {cs : List Char}
    (hn : inRange (signed negative n) = true) (h : ∀ c ∈ cs, c.isDigit = true) :
    pushAll negative (signed negative n) cs =
      if inRange (signed negative (Nat.ofDigitChars 10 cs n)) then
        some (signed negative (Nat.ofDigitChars 10 cs n)) else none := by
  induction cs generalizing n with
  | nil => simp [pushAll, hn]
  | cons c cs ih =>
    have hc := h c (List.mem_cons_self ..)
    have hcs : ∀ d ∈ cs, d.isDigit = true := fun d hd => h d (List.mem_cons_of_mem c hd)
    rw [pushAll, push_signed negative n hc, Nat.ofDigitChars_cons]
    change Option.bind (if inRange (signed negative (10 * n + (c.toNat - 48))) then _ else _) _ =
      if inRange (signed negative (Nat.ofDigitChars 10 cs (10 * n + (c.toNat - 48)))) then _ else _
    by_cases hStep : inRange (signed negative (10 * n + (c.toNat - 48))) = true
    · rw [if_pos hStep, Option.bind_some, ih hStep hcs]
      rfl
    · have hEnd : ¬ inRange (signed negative
          (Nat.ofDigitChars 10 cs (10 * n + (c.toNat - 48)))) = true :=
        fun hr => hStep (inRange_signed_of_le (le_ofDigitChars _ cs) hr)
      rw [if_neg hStep, if_neg hEnd, Option.bind_none]

/-- From the start, it is the value of the whole run that has to fit. -/
theorem pushAll_digits (negative : Bool) {cs : List Char} (h : ∀ c ∈ cs, c.isDigit = true) :
    pushAll negative 0 cs = if inRange (signed negative (Nat.ofDigitChars 10 cs 0)) then
      some (signed negative (Nat.ofDigitChars 10 cs 0)) else none := by
  have hzero : signed negative 0 = 0 := by cases negative <;> rfl
  have hstart := pushAll_signed negative (n := 0) (by rw [hzero]; decide) h
  rwa [hzero] at hstart

/-! ### Reading back -/

/-- The front of a text up to its first character without a property. -/
theorem takeWhile_append_of_stop {p : Char → Bool} {ds rest : List Char}
    (hds : ∀ c ∈ ds, p c = true) (hrest : ∀ c ∈ rest.head?, p c = false) :
    (ds ++ rest).takeWhile p = ds ∧ (ds ++ rest).dropWhile p = rest := by
  rw [List.takeWhile_append_of_pos hds, List.dropWhile_append_of_pos hds]
  cases rest with
  | nil => simp
  | cons c rest =>
    have hc := hrest c rfl
    simp [hc]

/-- A character that is no blank stays at the front. -/
theorem dropWhile_isBlank_cons {c : Char} {cs : List Char} (h : isBlank c = false) :
    (c :: cs).dropWhile isBlank = c :: cs := by
  simp [h]

theorem isBlank_of_isDigit {c : Char} (h : c.isDigit = true) : isBlank c = false := by
  unfold isBlank
  simp only [decide_eq_false_iff_not, Bool.or_eq_false_iff]
  refine ⟨⟨⟨⟨⟨?_, ?_⟩, ?_⟩, ?_⟩, ?_⟩, ?_⟩ <;> rintro rfl <;> revert h <;> decide

theorem splitSign_digits {c : Char} {cs : List Char} (h : c.isDigit = true) :
    splitSign (c :: cs) = (false, c :: cs) := by
  have hm : c ≠ '-' := by rintro rfl; revert h; decide
  have hp : c ≠ '+' := by rintro rfl; revert h; decide
  unfold splitSign
  split
  · rename_i heq; exact absurd (List.cons.inj heq).1 hm
  · rename_i heq; exact absurd (List.cons.inj heq).1 hp
  · rfl

theorem isDigit_toDigits (n : Nat) : ∀ c ∈ Nat.toDigits 10 n, c.isDigit = true :=
  fun _ hc => Nat.isDigit_of_mem_toDigits (by decide) (by decide) hc

theorem mem_render {x : Int} {c : Char} (h : c ∈ render x) : c.isDigit = true ∨ c = '-' := by
  unfold render at h
  split_ifs at h
  · rcases List.mem_cons.mp h with rfl | h
    · exact Or.inr rfl
    · exact Or.inl (isDigit_toDigits _ c h)
  · exact Or.inl (isDigit_toDigits _ c h)

/-- Reading takes the sign and the run of digits, and leaves what follows them. -/
theorem scan_of_split {cs : List Char} {negative : Bool} {n : Nat} {rest : List Char}
    (hs : splitSign (cs.dropWhile isBlank) = (negative, Nat.toDigits 10 n ++ rest))
    (hrest : ∀ c ∈ rest.head?, c.isDigit = false) (hr : inRange (signed negative n) = true) :
    scan cs = some (signed negative n, rest) := by
  obtain ⟨htake, hdrop⟩ := takeWhile_append_of_stop (isDigit_toDigits n) hrest
  have hvalue : pushAll negative 0 (Nat.toDigits 10 n) = some (signed negative n) := by
    rw [pushAll_digits negative (isDigit_toDigits n), Nat.ofDigitChars_ten_toDigits, if_pos hr]
  simp only [scan, hs, htake, hdrop]
  rw [if_neg (by simp), hvalue, Option.map_some]

/-- The plain form of a 64-bit integer reads back if no digit follows it. -/
theorem scan_render {x : Int} {rest : List Char} (hx : inRange x = true)
    (hrest : ∀ c ∈ rest.head?, c.isDigit = false) : scan (render x ++ rest) = some (x, rest) := by
  have hsigned : signed (decide (x < 0)) x.natAbs = x := by
    unfold signed
    simp only [decide_eq_true_eq]
    split <;> omega
  have hread : splitSign ((render x ++ rest).dropWhile isBlank) =
      (decide (x < 0), Nat.toDigits 10 x.natAbs ++ rest) := by
    unfold render
    split_ifs with hneg
    · simp only [hneg, decide_true]
      rfl
    · obtain ⟨c, cs, hcs⟩ :=
        List.exists_cons_of_ne_nil (Nat.toDigits_ne_nil (n := x.natAbs) (b := 10))
      have hc : c.isDigit = true :=
        isDigit_toDigits x.natAbs c (by rw [hcs]; exact List.mem_cons_self ..)
      simp only [hneg, decide_false, hcs, List.cons_append]
      rw [dropWhile_isBlank_cons (isBlank_of_isDigit hc), splitSign_digits hc]
  rw [← hsigned] at hx
  rw [scan_of_split hread hrest hx, hsigned]

end Keyrings.Decimal
