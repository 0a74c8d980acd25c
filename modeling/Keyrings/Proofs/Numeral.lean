import Keyrings.Proofs.Decimal
import Mathlib.Data.List.TakeWhile

/-! Numbers by their spelling. A numeral has blanks, a sign and digits, and it stands in front of a
text that goes on with no digit. A text starts with one numeral at most, and reading finds it if its
value fits into 64 bits; a text that starts with none is not read. -/

namespace Keyrings.Decimal

/-- A sign that may be missing. -/
def IsSign (sign : List Char) : Prop := sign = [] ∨ sign = ['+'] ∨ sign = ['-']

/-- The sign is split off what starts with none. -/
theorem splitSign_append {sign body : List Char} (hsign : IsSign sign)
    (hbody : ∀ c ∈ body.head?, c ≠ '+' ∧ c ≠ '-') :
    splitSign (sign ++ body) = (decide (sign = ['-']), body) := by
  rcases hsign with rfl | rfl | rfl
  · rw [List.nil_append]
    unfold splitSign
    split
    · exact absurd rfl (hbody '-' rfl).2
    · exact absurd rfl (hbody '+' rfl).1
    · rfl
  · rfl
  · rfl

/-- A number as it is spelled: blanks, a sign and digits. -/
@[ext]
structure Numeral where
  blanks : List Char
  sign : List Char
  digits : List Char

namespace Numeral

def text (n : Numeral) : List Char := n.blanks ++ (n.sign ++ n.digits)

/-- The integer that a numeral stands for, of any size. -/
def value (n : Numeral) : Int := signed (n.sign = ['-']) (Nat.ofDigitChars 10 n.digits 0)

/-- A numeral with the text after it: its parts are what they are called, there is a digit, and all
digits are taken. -/
structure Before (n : Numeral) (rest : List Char) : Prop where
  blanks : ∀ c ∈ n.blanks, isBlank c = true
  sign : n.sign = [] ∨ n.sign = ['+'] ∨ n.sign = ['-']
  digits : ∀ c ∈ n.digits, c.isDigit = true
  digits_ne_nil : n.digits ≠ []
  stop : ∀ c ∈ rest.head?, c.isDigit = false

variable {n n' : Numeral} {rest rest' : List Char}

theorem Before.exists_digit (h : n.Before rest) :
    ∃ c ds, n.digits = c :: ds ∧ c.isDigit = true := by
  obtain ⟨c, ds, hds⟩ := List.exists_cons_of_ne_nil h.digits_ne_nil
  exact ⟨c, ds, hds, h.digits c (by rw [hds]; exact List.mem_cons_self ..)⟩

/-- The sign that is split off is that of the numeral. -/
theorem Before.splitSign_eq (h : n.Before rest) :
    splitSign (n.sign ++ n.digits ++ rest) = (decide (n.sign = ['-']), n.digits ++ rest) := by
  obtain ⟨c, ds, hds, hc⟩ := h.exists_digit
  rw [List.append_assoc]
  refine splitSign_append h.sign fun d hd => ?_
  rw [hds] at hd
  cases hd
  constructor <;> (rintro rfl; exact absurd hc (by decide))

/-- The blanks that are skipped are those of the numeral. -/
theorem Before.blanks_eq (h : n.Before rest) :
    (n.text ++ rest).takeWhile isBlank = n.blanks ∧
      (n.text ++ rest).dropWhile isBlank = n.sign ++ n.digits ++ rest := by
  obtain ⟨c, ds, hds, hc⟩ := h.exists_digit
  have hstop : ∀ b ∈ (n.sign ++ n.digits ++ rest).head?, isBlank b = false := by
    intro b hb
    rcases h.sign with hs | hs | hs
    · rw [hs, hds] at hb
      cases hb
      exact isBlank_of_isDigit hc
    · rw [hs] at hb
      cases hb
      decide
    · rw [hs] at hb
      cases hb
      decide
  have htext : n.text ++ rest = n.blanks ++ (n.sign ++ n.digits ++ rest) := by
    simp only [text, List.append_assoc]
  rw [htext]
  exact takeWhile_append_of_stop h.blanks hstop

/-- Reading takes a numeral as a whole, if its value fits. -/
theorem Before.scan_eq (h : n.Before rest) : scan (n.text ++ rest) =
    if inRange n.value then some (n.value, rest) else none := by
  obtain ⟨htake, hdrop⟩ := takeWhile_append_of_stop h.digits h.stop
  have hne : n.digits.isEmpty = false := by simpa using h.digits_ne_nil
  simp only [scan, h.blanks_eq.2, h.splitSign_eq, htake, hdrop, hne, Bool.false_eq_true, if_false,
    pushAll_digits _ h.digits]
  change Option.map _ (if inRange n.value then some n.value else none) = _
  split_ifs <;> rfl

/-- A text starts with one numeral at most. -/
theorem Before.unique (h : n.Before rest) (h' : n'.Before rest')
    (he : n.text ++ rest = n'.text ++ rest') : n = n' ∧ rest = rest' := by
  obtain ⟨hblanks, hbody⟩ := h.blanks_eq
  obtain ⟨hblanks', hbody'⟩ := h'.blanks_eq
  rw [he, hblanks'] at hblanks
  rw [he, hbody'] at hbody
  have hsplit := h.splitSign_eq
  rw [← hbody, h'.splitSign_eq] at hsplit
  obtain ⟨-, hdigits⟩ := Prod.mk.inj hsplit
  have hsign : n'.sign = n.sign := by
    rw [List.append_assoc, List.append_assoc, hdigits] at hbody
    exact List.append_cancel_right hbody
  obtain ⟨htake, hdrop⟩ := takeWhile_append_of_stop h.digits h.stop
  obtain ⟨htake', hdrop'⟩ := takeWhile_append_of_stop h'.digits h'.stop
  rw [← hdigits, htake'] at htake
  rw [← hdigits, hdrop'] at hdrop
  exact ⟨Numeral.ext hblanks.symm hsign.symm htake.symm, hdrop.symm⟩

end Numeral

/-- A text starts with a number that fits into 64 bits, and goes on after its numeral. -/
def StartsWith (cs : List Char) (x : Int) (rest : List Char) : Prop :=
  ∃ n : Numeral, n.Before rest ∧ cs = n.text ++ rest ∧ n.value = x ∧ inRange x = true

/-- Blanks, a sign, and what follows the sign. -/
theorem exists_sign (cs : List Char) : ∃ sign, (sign = [] ∨ sign = ['+'] ∨ sign = ['-']) ∧
    cs = sign ++ (splitSign cs).2 := by
  unfold splitSign
  split
  · exact ⟨['-'], by simp, rfl⟩
  · exact ⟨['+'], by simp, rfl⟩
  · exact ⟨[], by simp, rfl⟩

theorem dropWhile_head? {p : Char → Bool} {cs : List Char} :
    ∀ c ∈ (cs.dropWhile p).head?, p c = false := by
  intro c hc
  have := List.head?_dropWhile_not p cs
  rw [hc] at this
  simpa using this

/-- What is read is a numeral. -/
theorem exists_numeral_of_scan {cs rest : List Char} {x : Int} (h : scan cs = some (x, rest)) :
    ∃ n : Numeral, n.Before rest ∧ cs = n.text ++ rest := by
  obtain ⟨sign, hsign, hbody⟩ := exists_sign (cs.dropWhile isBlank)
  simp only [scan] at h
  generalize hsplit : splitSign (cs.dropWhile isBlank) = split at h hbody
  obtain ⟨negative, body⟩ := split
  simp only at h hbody
  split_ifs at h with hempty
  obtain ⟨value, -, hvalue⟩ := Option.map_eq_some_iff.mp h
  cases hvalue
  refine ⟨⟨cs.takeWhile isBlank, sign, body.takeWhile Char.isDigit⟩, ⟨?_, hsign, ?_, ?_, ?_⟩, ?_⟩
  · exact fun c hc => List.mem_takeWhile_imp hc
  · exact fun c hc => List.mem_takeWhile_imp hc
  · simpa using hempty
  · exact dropWhile_head?
  · calc cs = cs.takeWhile isBlank ++ cs.dropWhile isBlank := List.takeWhile_append_dropWhile.symm
      _ = cs.takeWhile isBlank ++ (sign ++ (body.takeWhile Char.isDigit ++
          body.dropWhile Char.isDigit)) := by
        rw [List.takeWhile_append_dropWhile (p := Char.isDigit), ← hbody]
      _ = _ := by simp only [Numeral.text, List.append_assoc]

/-- Reading is exact: it finds the number that a text starts with, and finds none where there is
none or where it does not fit. -/
theorem scan_eq_some_iff {cs rest : List Char} {x : Int} :
    scan cs = some (x, rest) ↔ StartsWith cs x rest := by
  constructor
  · intro h
    obtain ⟨n, hn, rfl⟩ := exists_numeral_of_scan h
    rw [hn.scan_eq] at h
    split_ifs at h with hr
    cases h
    exact ⟨n, hn, rfl, rfl, hr⟩
  · rintro ⟨n, hn, rfl, rfl, hr⟩
    rw [hn.scan_eq, if_pos hr]

/-- A text starts with one number at most. -/
theorem StartsWith.unique {cs rest rest' : List Char} {x x' : Int} (h : StartsWith cs x rest)
    (h' : StartsWith cs x' rest') : x = x' ∧ rest = rest' := by
  rw [← scan_eq_some_iff] at h h'
  rw [h] at h'
  exact Prod.mk.inj (Option.some.inj h')

/-- Some blanks dropped before reading make no difference. -/
theorem scan_dropWhile {p : Char → Bool} (hp : ∀ c, p c = true → isBlank c = true)
    (cs : List Char) : scan (cs.dropWhile p) = scan cs := by
  have hdrop : (cs.dropWhile p).dropWhile isBlank = cs.dropWhile isBlank := by
    induction cs with
    | nil => rfl
    | cons c cs ih =>
      by_cases hc : p c = true
      · rw [List.dropWhile_cons_of_pos hc, ih, List.dropWhile_cons_of_pos (hp c hc)]
      · rw [List.dropWhile_cons_of_neg hc]
  simp only [scan, hdrop]

end Keyrings.Decimal
