import Keyrings.Proofs.Numeral

/-! Overflow on the way through a number. Reading checks every product and every sum before it goes
on to the next digit, and never looks at the number as a whole. The results only grow away from
zero, so that one of them leaves the 64-bit range exactly if the number does: none is refused too
early, and none is let through. -/

namespace Keyrings.Decimal

/-- The integers of 64 bits with a sign, from -2^63 to 2^63 - 1. -/
def Fits (x : Int) : Prop := -9223372036854775808 ≤ x ∧ x ≤ 9223372036854775807

instance (x : Int) : Decidable (Fits x) := inferInstanceAs (Decidable (_ ∧ _))

theorem inRange_iff_fits {x : Int} : inRange x = true ↔ Fits x := inRange_iff

/-- A number with one more digit, of any size. -/
def extend (negative : Bool) (acc : Int) (c : Char) : Int :=
  if negative then acc * 10 - digitValue c else acc * 10 + digitValue c

/-- The products and sums that are formed on the way through a run of digits, of any size. -/
def partials (negative : Bool) (acc : Int) : List Char → List Int
  | [] => []
  | c :: cs => acc * 10 :: extend negative acc c :: partials negative (extend negative acc c) cs

/-- A digit is taken if its product and its sum fit. -/
theorem push_eq (negative : Bool) (acc : Int) (c : Char) : push negative acc c =
    if Fits (acc * 10) ∧ Fits (extend negative acc c) then some (extend negative acc c)
    else none := by
  simp only [push, inRange_iff_fits, ite_and]
  rfl

/-- A run of digits is taken if all of its products and sums fit. -/
theorem pushAll_eq (negative : Bool) (acc : Int) (cs : List Char) : pushAll negative acc cs =
    if ∀ x ∈ partials negative acc cs, Fits x then some (cs.foldl (extend negative) acc)
    else none := by
  induction cs generalizing acc with
  | nil => simp [pushAll, partials]
  | cons c cs ih =>
    simp only [pushAll, push_eq, partials, List.forall_mem_cons, List.foldl_cons]
    by_cases hstep : Fits (acc * 10) ∧ Fits (extend negative acc c)
    · rw [if_pos hstep, Option.bind_some, ih]
      simp only [hstep, true_and]
    · rw [if_neg hstep, if_neg fun h => hstep ⟨h.1, h.2.1⟩, Option.bind_none]

/-- The products and sums of a run of digits fit exactly if its value does: none is further away
from zero. -/
theorem forall_partials_iff (negative : Bool) {ds : List Char} (h : ∀ c ∈ ds, c.isDigit = true) :
    (∀ x ∈ partials negative 0 ds, Fits x) ↔ Fits (signed negative (Nat.ofDigitChars 10 ds 0)) := by
  have hvalue := pushAll_digits negative h
  rw [pushAll_eq] at hvalue
  simp only [inRange_iff_fits] at hvalue
  split_ifs at hvalue with hall hfits hfits
  · exact iff_of_true hall hfits
  · exact iff_of_false hall hfits

/-- Reading a number is exact over the whole 64-bit range. Where a text starts with blanks, a sign
and a longest run of digits, their value and what follows them are read if the value fits, and
otherwise nothing is; and nothing is read of any other text. On the way through the digits a product
or a sum stops the reading exactly if the digits up to there have a value that does not fit. -/
theorem scan_exact (cs : List Char) :
    (∀ (n : Numeral) (rest : List Char), n.Before rest → cs = n.text ++ rest →
      (Fits n.value → scan cs = some (n.value, rest)) ∧ (¬ Fits n.value → scan cs = none) ∧
      ∀ ds, ds <+: n.digits →
        (pushAll (n.sign = ['-']) 0 ds = none ↔
          ∃ x ∈ partials (n.sign = ['-']) 0 ds, ¬ Fits x) ∧
        ((∃ x ∈ partials (n.sign = ['-']) 0 ds, ¬ Fits x) ↔
          ¬ Fits (signed (n.sign = ['-']) (Nat.ofDigitChars 10 ds 0)))) ∧
    ((∀ (n : Numeral) (rest : List Char), n.Before rest → cs ≠ n.text ++ rest) →
      scan cs = none) := by
  constructor
  · rintro n rest hn rfl
    refine ⟨fun hfits => ?_, fun hfits => ?_, fun ds hds => ⟨?_, ?_⟩⟩
    · rw [hn.scan_eq, if_pos (inRange_iff.mpr hfits)]
    · rw [hn.scan_eq, if_neg (fun hr => hfits (inRange_iff.mp hr))]
    · simp [pushAll_eq]
    · rw [← forall_partials_iff _ fun c hc => hn.digits c (hds.subset hc)]
      simp only [not_forall, exists_prop]
  · intro h
    rw [Option.eq_none_iff_forall_ne_some]
    rintro ⟨x, rest⟩ hscan
    obtain ⟨n, hn, heq⟩ := exists_numeral_of_scan hscan
    exact h n rest hn heq

/-- The least number is read, as all on the way to it fits, and one more than the greatest is
not. -/
theorem scan_exact_ends :
    scan "-9223372036854775808 x".toList = some (-9223372036854775808, [' ', 'x']) ∧
    (∀ x ∈ partials true 0 "9223372036854775808".toList, Fits x) ∧
    scan "\t+0009223372036854775808".toList = none ∧ scan "- x".toList = none := by
  have hleast : (⟨[], ['-'], "9223372036854775808".toList⟩ : Numeral).Before [' ', 'x'] :=
    ⟨by simp, by decide, List.all_eq_true.mp rfl, by decide, by simp⟩
  have hbeyond : (⟨['\t'], ['+'], "0009223372036854775808".toList⟩ : Numeral).Before [] :=
    ⟨List.all_eq_true.mp rfl, by decide, List.all_eq_true.mp rfl, by decide, by simp⟩
  obtain ⟨hread, -, hway⟩ := (scan_exact "-9223372036854775808 x".toList).1 _ _ hleast rfl
  refine ⟨hread (by decide), ?_, ((scan_exact _).1 _ _ hbeyond rfl).2.1 (by decide),
    (scan_exact _).2 fun n rest hn heq => ?_⟩
  · have hvalue := not_iff_not.mpr (hway _ List.prefix_rfl).2
    simpa using hvalue.mpr (by decide)
  · obtain ⟨c, ds, hds, hc⟩ := hn.exists_digit
    have hmem : c ∈ "- x".toList := by
      rw [heq, Numeral.text, hds]
      simp
    have hno := List.all_eq_true.mp (rfl : "- x".toList.all (!·.isDigit) = true) c hmem
    rw [hc] at hno
    contradiction

end Keyrings.Decimal
