import Keyrings.Proofs.KeyFile
import Keyrings.Proofs.Numeral
import Mathlib.Data.Bool.AllAny

/-! The grammar of a line: two numerals, and the digits of the secret between gaps. A line is read
exactly if it can be spelled so with an identifier in its range and a time that is accepted, and
then in one way only. A line that is refused meets the requirements before the one that is named,
and not that one. -/

namespace Keyrings

/-! ### Digits of a secret -/

namespace Hex

/-- The digits in either case. -/
def IsDigit (c : Char) : Prop := c ∈ "0123456789abcdefABCDEF".toList

instance (c : Char) : Decidable (IsDigit c) := inferInstanceAs (Decidable (c ∈ _))

/-- A digit in either case has the value of its lower-case form. -/
theorem value?_eq_some_iff {c : Char} {v : Nat} :
    value? c = some v ↔ IsDigit c ∧ v < 16 ∧ digit v = c.toLower := by
  have digits : ∀ c ∈ "0123456789abcdefABCDEF".toList,
      ∃ v < 16, value? c = some v ∧ digit v = c.toLower :=
    List.all_iff_forall_prop.mp (by decide)
  constructor
  · intro h
    have hlt : c.toNat < 128 := by
      unfold value? at h
      split_ifs at h with hnum hlower hupper
      · exact Nat.lt_of_le_of_lt hnum.2 (by decide)
      · exact Nat.lt_of_le_of_lt hlower.2 (by decide)
      · exact Nat.lt_of_le_of_lt hupper.2 (by decide)
    have low : ∀ n < 128, (value? (Char.ofNat n)).isSome = true → IsDigit (Char.ofNat n) := by
      decide
    have hc := low c.toNat hlt
    rw [Char.ofNat_toNat, h] at hc
    obtain ⟨w, hw, hvalue, hdigit⟩ := digits c (hc rfl)
    rw [h] at hvalue
    cases hvalue
    exact ⟨hc rfl, hw, hdigit⟩
  · rintro ⟨hc, hv, hdigit⟩
    obtain ⟨w, hw, hvalue, hdigit'⟩ := digits c hc
    have hsame := congrArg value? (hdigit.trans hdigit'.symm)
    rw [value?_digit hv, value?_digit hw] at hsame
    rw [hvalue, hsame]

/-- The bytes that are read are those whose digits the text has, in either case. -/
theorem decode_eq_some_iff {cs : List Char} {bs : List UInt8} :
    decode cs = some bs ↔ (∀ c ∈ cs, IsDigit c) ∧ encode bs = cs.map Char.toLower := by
  fun_induction decode cs generalizing bs with
  | case1 =>
    cases bs with
    | nil => simp [encode]
    | cons b bs => simp [encode]
  | case2 c =>
    cases bs with
    | nil => simp [encode]
    | cons b bs => simp [encode]
  | case3 h l rest ih =>
    simp only [Option.bind_eq_bind, Option.bind_eq_some_iff, Option.some.injEq, value?_eq_some_iff,
      ih, List.forall_mem_cons, List.map_cons]
    constructor
    · rintro ⟨high, ⟨hh, hhigh, hdigit⟩, low, ⟨hl, hlow, hdigit'⟩, bytes, ⟨hrest, hbytes⟩, rfl⟩
      have hbyte : (UInt8.ofNat (16 * high + low)).toNat = 16 * high + low := by
        rw [UInt8.toNat_ofNat']
        omega
      have hdiv : (16 * high + low) / 16 = high := by omega
      have hmod : (16 * high + low) % 16 = low := by omega
      refine ⟨⟨hh, hl, hrest⟩, ?_⟩
      rw [encode, hbyte, hdiv, hmod, hdigit, hdigit', hbytes]
    · rintro ⟨⟨hh, hl, hrest⟩, hbytes⟩
      cases bs with
      | nil => cases hbytes
      | cons b bytes =>
        have hb : b.toNat < 256 := b.toNat_lt
        simp only [encode, List.cons.injEq] at hbytes
        obtain ⟨hhigh, hlow, hbytes⟩ := hbytes
        refine ⟨b.toNat / 16, ⟨hh, by omega, hhigh⟩, b.toNat % 16, ⟨hl, by omega, hlow⟩, bytes,
          ⟨hrest, hbytes⟩, ?_⟩
        rw [Nat.div_add_mod, UInt8.ofNat_toNat]

/-- Digits in pairs are read. -/
theorem exists_decode {cs : List Char} (h : ∀ c ∈ cs, IsDigit c) (heven : cs.length % 2 = 0) :
    ∃ bs, decode cs = some bs := by
  fun_induction decode cs with
  | case1 => exact ⟨[], rfl⟩
  | case2 c => simp at heven
  | case3 high low rest ih =>
    obtain ⟨hhigh, hlow, hrest⟩ : IsDigit high ∧ IsDigit low ∧ ∀ c ∈ rest, IsDigit c := by
      simpa using h
    obtain ⟨bs, hbs⟩ := ih hrest (by simp at heven; omega)
    have digits : ∀ c ∈ "0123456789abcdefABCDEF".toList, (value? c).isSome = true :=
      List.all_iff_forall_prop.mp (by decide)
    obtain ⟨v, hv⟩ := Option.isSome_iff_exists.mp (digits high hhigh)
    obtain ⟨w, hw⟩ := Option.isSome_iff_exists.mp (digits low hlow)
    exact ⟨_, by rw [hv, hw, hbs]; rfl⟩

theorem IsDigit.isGap {c : Char} (h : IsDigit c) : Line.isGap c = false := by
  have digits : ∀ c ∈ "0123456789abcdefABCDEF".toList, Line.isGap c = false :=
    List.all_iff_forall_prop.mp (by decide)
  exact digits c h

end Hex

namespace Line

open Decimal (Numeral StartsWith scan_eq_some_iff)

/-! ### Spellings -/

/-- A line by its parts: two numerals, a gap, the digits of the secret and the gap at the end. -/
@[ext]
structure Spelling where
  id : Numeral
  time : Numeral
  gap : List Char
  digits : List Char
  tail : List Char

namespace Spelling

def text (s : Spelling) : List Char := s.id.text ++ (s.time.text ++ (s.gap ++ (s.digits ++ s.tail)))

/-- The parts are what they are called, the secret has digits in pairs, the identifier is in its
range and the time is one that is accepted. -/
structure Fits (s : Spelling) (now : Instant) : Prop where
  id : s.id.Before (s.time.text ++ (s.gap ++ (s.digits ++ s.tail)))
  time : s.time.Before (s.gap ++ (s.digits ++ s.tail))
  gap : ∀ c ∈ s.gap, isGap c = true
  tail : ∀ c ∈ s.tail, isGap c = true
  digits : ∀ c ∈ s.digits, Hex.IsDigit c
  digits_ne_nil : s.digits ≠ []
  digits_even : s.digits.length % 2 = 0
  id_range : 0 ≤ s.id.value ∧ s.id.value ≤ maxId
  accepted : ∃ t : Instant, t.toInt = s.time.value ∧ isAcceptable t now = true

/-- The key whose values the parts have. -/
structure Spells (s : Spelling) (k : Key) : Prop where
  id : k.id.toInt = s.id.value
  created : k.created.toInt = s.time.value
  secret : Hex.encode k.secret = s.digits.map Char.toLower

end Spelling

/-! ### Requirements -/

/-- A line starts with an identifier in its range. -/
def Identified (line rest : List Char) : Prop :=
  ∃ id, StartsWith line id rest ∧ 0 ≤ id ∧ id ≤ maxId

/-- A line goes on with a time that is accepted. -/
def Timed (line : List Char) (now : Instant) (more : List Char) : Prop :=
  ∃ rest, Identified line rest ∧
    ∃ t : Instant, StartsWith rest t.toInt more ∧ isAcceptable t now = true

/-- Whether a line meets the requirement that a fault names, and so all before it. -/
def Meets (line : List Char) (now : Instant) : LineFault → Prop
  | .malformedId => ∃ id rest, StartsWith line id rest
  | .idOutOfRange => ∃ rest, Identified line rest
  | .malformedTimestamp =>
    ∃ rest, Identified line rest ∧ ∃ seconds more, StartsWith rest seconds more
  | .timestampOutOfRange => ∃ more, Timed line now more
  | .missingSecret => ∃ more, Timed line now more ∧ ∃ c ∈ more, isGap c = false
  | .invalidHex => ∃ s : Spelling, s.text = line ∧ s.Fits now

def requirements : List LineFault :=
  [.malformedId, .idOutOfRange, .malformedTimestamp, .timestampOutOfRange, .missingSecret,
    .invalidHex]

/-- A fault names the leftmost requirement that a line does not meet. -/
def Breaks (line : List Char) (now : Instant) (fault : LineFault) : Prop :=
  ∃ before after, requirements = before ++ fault :: after ∧
    (∀ earlier ∈ before, Meets line now earlier) ∧ ¬ Meets line now fault

variable {line rest more : List Char} {now : Instant}

theorem scan_skip (cs : List Char) : Decimal.scan (cs.dropWhile isGap) = Decimal.scan cs := by
  refine Decimal.scan_dropWhile (fun c hc => ?_) cs
  simp only [isGap, Bool.or_eq_true, decide_eq_true_eq] at hc
  rcases hc with rfl | rfl <;> decide

/-- A number that was read is an instant. -/
theorem toInt_of_startsWith {cs : List Char} {x : Int} (h : StartsWith cs x rest) :
    (Int64.ofInt x).toInt = x := by
  obtain ⟨-, -, -, -, hr⟩ := h
  rw [Decimal.inRange_iff] at hr
  exact Int64.toInt_ofInt_of_le (by omega) (by omega)

theorem toInt_of_range {x : Int} (h : 0 ≤ x ∧ x ≤ maxId) : (Int32.ofInt x).toInt = x := by
  unfold maxId at h
  exact Int32.toInt_ofInt_of_le (by omega) (by omega)

/-! ### The secret -/

/-- The gaps around a secret are dropped. -/
theorem trimEnd_eq {gap digits tail : List Char} (hgap : ∀ c ∈ gap, isGap c = true)
    (htail : ∀ c ∈ tail, isGap c = true) (hdigits : ∀ c ∈ digits, isGap c = false)
    (hne : digits ≠ []) :
    trimEnd ((gap ++ (digits ++ tail)).dropWhile isGap) = digits := by
  have hfront : ∀ c ∈ (digits ++ tail).head?, isGap c = false := by
    intro c hc
    rw [List.head?_append_of_ne_nil _ hne] at hc
    exact hdigits c (List.mem_of_head? hc)
  have hback : ∀ c ∈ digits.reverse.head?, isGap c = false :=
    fun c hc => hdigits c (List.mem_reverse.mp (List.mem_of_head? hc))
  have hrev : ∀ c ∈ tail.reverse, isGap c = true := fun c hc => htail c (List.mem_reverse.mp hc)
  rw [(Decimal.takeWhile_append_of_stop hgap hfront).2, trimEnd, List.reverse_append,
    (Decimal.takeWhile_append_of_stop hrev hback).2, List.reverse_reverse]

/-- What is left of a text without the gaps at its ends stands between them. -/
theorem exists_gaps (cs : List Char) : ∃ gap tail, (∀ c ∈ gap, isGap c = true) ∧
    (∀ c ∈ tail, isGap c = true) ∧ cs = gap ++ (trimEnd (cs.dropWhile isGap) ++ tail) := by
  refine ⟨cs.takeWhile isGap, ((cs.dropWhile isGap).reverse.takeWhile isGap).reverse,
    fun c hc => List.mem_takeWhile_imp hc,
    fun c hc => List.mem_takeWhile_imp (List.mem_reverse.mp hc), ?_⟩
  rw [trimEnd, ← List.reverse_append, List.takeWhile_append_dropWhile, List.reverse_reverse,
    List.takeWhile_append_dropWhile]

/-- Nothing is left exactly of a gap. -/
theorem trimEnd_eq_nil_iff (cs : List Char) :
    trimEnd (cs.dropWhile isGap) = [] ↔ ∀ c ∈ cs, isGap c = true := by
  simp only [trimEnd, List.reverse_eq_nil_iff, List.dropWhile_eq_nil_iff, List.mem_reverse]
  constructor
  · intro h
    cases hdrop : cs.dropWhile isGap with
    | nil => exact List.dropWhile_eq_nil_iff.mp hdrop
    | cons c rest =>
      have hc := h c (by rw [hdrop]; exact List.mem_cons_self ..)
      have hstop : isGap c = false := Decimal.dropWhile_head? c (by rw [hdrop]; rfl)
      rw [hstop] at hc
      contradiction
  · exact fun h c hc => h c ((List.dropWhile_sublist _).subset hc)

/-! ### What is read -/

inductive Reading (line : List Char) (now : Instant) : Except LineFault Key → Prop
  | malformedId (h : ∀ id rest, ¬ StartsWith line id rest) :
      Reading line now (.error .malformedId)
  | idOutOfRange {id : Int} {rest : List Char} (h : StartsWith line id rest)
      (hr : ¬ (0 ≤ id ∧ id ≤ maxId)) : Reading line now (.error .idOutOfRange)
  | malformedTimestamp {rest : List Char} (hid : Identified line rest)
      (h : ∀ seconds more, ¬ StartsWith rest seconds more) :
      Reading line now (.error .malformedTimestamp)
  | timestampOutOfRange {rest more : List Char} {t : Instant} (hid : Identified line rest)
      (h : StartsWith rest t.toInt more) (ht : isAcceptable t now = false) :
      Reading line now (.error .timestampOutOfRange)
  | missingSecret {more : List Char} (ht : Timed line now more) (h : ∀ c ∈ more, isGap c = true) :
      Reading line now (.error .missingSecret)
  | invalidHex {more : List Char} (ht : Timed line now more) (hs : ∃ c ∈ more, isGap c = false)
      (h : Hex.decode (trimEnd (more.dropWhile isGap)) = none) :
      Reading line now (.error .invalidHex)
  | key {rest more : List Char} {k : Key} (hid : StartsWith line k.id.toInt rest)
      (hr : 0 ≤ k.id.toInt) (ht : StartsWith rest k.created.toInt more)
      (hacc : isAcceptable k.created now = true) (hs : ∃ c ∈ more, isGap c = false)
      (h : Hex.decode (trimEnd (more.dropWhile isGap)) = some k.secret) :
      Reading line now (.ok k)

theorem startsWith_none {cs : List Char} (h : Decimal.scan cs = none) (x : Int) (rest : List Char) :
    ¬ StartsWith cs x rest := by
  rw [← scan_eq_some_iff, h]
  simp

theorem parse_reading (line : List Char) (now : Instant) : Reading line now (parse line now) := by
  rw [parse]
  cases hid : Decimal.scan line with
  | none => exact .malformedId (startsWith_none hid)
  | some found =>
    obtain ⟨id, rest⟩ := found
    rw [scan_eq_some_iff] at hid
    simp only [scan_skip]
    by_cases hr : 0 ≤ id ∧ id ≤ maxId
    · rw [if_neg (by omega)]
      cases ht : Decimal.scan rest with
      | none => exact .malformedTimestamp ⟨id, hid, hr⟩ (startsWith_none ht)
      | some found =>
        obtain ⟨seconds, more⟩ := found
        rw [scan_eq_some_iff] at ht
        have hseconds := toInt_of_startsWith ht
        rw [← hseconds] at ht
        simp only [Bool.not_eq_true', List.isEmpty_iff]
        cases hacc : isAcceptable (Int64.ofInt seconds) now with
        | false => exact .timestampOutOfRange ⟨id, hid, hr⟩ ht hacc
        | true =>
          have htimed : Timed line now more := ⟨rest, ⟨id, hid, hr⟩, _, ht, hacc⟩
          rw [if_neg (by decide)]
          by_cases hs : ∀ c ∈ more, isGap c = true
          · rw [if_pos ((trimEnd_eq_nil_iff more).mpr hs)]
            exact .missingSecret htimed hs
          · rw [if_neg (fun he => hs ((trimEnd_eq_nil_iff more).mp he))]
            have hs' : ∃ c ∈ more, isGap c = false := by simpa using hs
            cases hsecret : Hex.decode (trimEnd (more.dropWhile isGap)) with
            | none => exact .invalidHex htimed hs' hsecret
            | some secret =>
              have hid' := toInt_of_range hr
              rw [← hid'] at hid hr
              exact .key (k := ⟨Int32.ofInt id, Int64.ofInt seconds, secret⟩) hid hr.1 ht hacc hs'
                hsecret
    · rw [if_pos (by omega)]
      exact .idOutOfRange hid hr

/-- A line that fits the grammar starts as one does that can be read. -/
theorem Spelling.Fits.timed {s : Spelling} (h : s.Fits now) :
    Timed s.text now (s.gap ++ (s.digits ++ s.tail)) := by
  have hin : ∀ x : Int, 0 ≤ x ∧ x ≤ maxId → Decimal.inRange x = true := by
    intro x hx
    unfold maxId at hx
    rw [Decimal.inRange_iff]
    omega
  obtain ⟨t, ht, hacc⟩ := h.accepted
  exact ⟨_, ⟨_, ⟨s.id, h.id, rfl, rfl, hin _ h.id_range⟩, h.id_range⟩, t,
    ⟨s.time, h.time, rfl, ht.symm, Decimal.inRange_int64 t⟩, hacc⟩

/-! ### One reading, one spelling -/

theorem Identified.unique {rest' : List Char} (h : Identified line rest)
    (h' : Identified line rest') : rest = rest' := by
  obtain ⟨id, hid, -⟩ := h
  obtain ⟨id', hid', -⟩ := h'
  exact (hid.unique hid').2

theorem Timed.unique {more' : List Char} (h : Timed line now more) (h' : Timed line now more') :
    more = more' := by
  obtain ⟨rest, hid, t, ht, -⟩ := h
  obtain ⟨rest', hid', t', ht', -⟩ := h'
  obtain rfl := hid.unique hid'
  exact (ht.unique ht').2

/-- There is one way to spell a line. -/
theorem Spelling.Fits.unique {s s' : Spelling} (h : s.Fits now) (h' : s'.Fits now)
    (he : s.text = s'.text) : s = s' := by
  obtain ⟨hid, hrest⟩ := h.id.unique h'.id he
  obtain ⟨htime, hmore⟩ := h.time.unique h'.time hrest
  have hgap : ∀ {s : Spelling}, s.Fits now →
      (s.gap ++ (s.digits ++ s.tail)).takeWhile isGap = s.gap ∧
      trimEnd ((s.gap ++ (s.digits ++ s.tail)).dropWhile isGap) = s.digits := by
    intro s h
    have hdigits : ∀ c ∈ s.digits, isGap c = false := fun c hc => (h.digits c hc).isGap
    refine ⟨(Decimal.takeWhile_append_of_stop h.gap fun c hc => ?_).1,
      trimEnd_eq h.gap h.tail hdigits h.digits_ne_nil⟩
    rw [List.head?_append_of_ne_nil _ h.digits_ne_nil] at hc
    exact hdigits c (List.mem_of_head? hc)
  obtain ⟨hgaps, hdigits⟩ := hgap h
  rw [hmore, (hgap h').1] at hgaps
  rw [hmore, (hgap h').2] at hdigits
  rw [← hgaps, ← hdigits, List.append_cancel_left_eq, List.append_cancel_left_eq] at hmore
  exact Spelling.ext hid htime hgaps.symm hdigits.symm hmore

/-- A spelling has the values of one key. -/
theorem Spelling.Spells.unique {s : Spelling} {k k' : Key} (h : s.Spells k) (h' : s.Spells k') :
    k = k' := by
  have hid : k.id = k'.id := Int32.toInt_inj.mp (h.id.trans h'.id.symm)
  have hcreated : k.created = k'.created := Int64.toInt_inj.mp (h.created.trans h'.created.symm)
  have hsecret := congrArg Hex.decode (h.secret.trans h'.secret.symm)
  rw [Hex.decode_encode, Hex.decode_encode] at hsecret
  obtain ⟨id, created, secret⟩ := k
  obtain ⟨id', created', secret'⟩ := k'
  cases hid
  cases hcreated
  cases hsecret
  rfl

/-- The leftmost requirement that a line does not meet is one. -/
theorem Breaks.unique {fault fault' : LineFault} (h : Breaks line now fault)
    (h' : Breaks line now fault') : fault = fault' := by
  classical
  have hfirst : ∀ f, Breaks line now f →
      requirements.find? (fun g => decide (¬ Meets line now g)) = some f := by
    rintro f ⟨before, after, heq, hbefore, hf⟩
    refine List.find?_eq_some_iff_append.mpr ⟨by simpa using hf, before, after, heq, fun g hg => ?_⟩
    simpa using hbefore g hg
  have hsame := hfirst fault h
  rw [hfirst fault' h'] at hsame
  exact (Option.some.inj hsame).symm

/-! ### Requirements that are met -/

theorem Identified.meets (h : Identified line rest) :
    Meets line now .malformedId ∧ Meets line now .idOutOfRange := by
  obtain ⟨id, hid, -⟩ := id h
  exact ⟨⟨id, rest, hid⟩, ⟨rest, h⟩⟩

theorem Timed.meets (h : Timed line now more) :
    ∀ f ∈ [LineFault.malformedId, .idOutOfRange, .malformedTimestamp, .timestampOutOfRange],
      Meets line now f := by
  obtain ⟨rest, hid, t, ht, -⟩ := id h
  simp only [List.forall_mem_cons]
  exact ⟨hid.meets.1, hid.meets.2, ⟨rest, hid, t.toInt, more, ht⟩, ⟨more, h⟩, by simp⟩

/-- A line that fits the grammar meets all requirements. -/
theorem Spelling.Fits.meets {s : Spelling} (h : s.Fits now) (fault : LineFault) :
    Meets s.text now fault := by
  obtain ⟨c, ds, hds⟩ := List.exists_cons_of_ne_nil h.digits_ne_nil
  have hc : c ∈ s.digits := by
    rw [hds]
    exact List.mem_cons_self ..
  cases fault with
  | missingSecret => exact ⟨_, h.timed, c, by simp [hc], (h.digits c hc).isGap⟩
  | invalidHex => exact ⟨s, rfl, h⟩
  | malformedId | idOutOfRange | malformedTimestamp | timestampOutOfRange =>
    exact h.timed.meets _ (by simp)

/-- A key that is read has its values from a spelling of the line. -/
theorem Reading.spelling {k : Key} (h : Reading line now (.ok k)) :
    ∃ s : Spelling, s.text = line ∧ s.Fits now ∧ s.Spells k := by
  cases h with
  | @key rest more _ hid hr ht hacc hs hdecode =>
    obtain ⟨n, hn, rfl, hvalue, -⟩ := hid
    obtain ⟨n', hn', rfl, hvalue', -⟩ := ht
    obtain ⟨gap, tail, hgap, htail, hmore⟩ := exists_gaps more
    obtain ⟨hdigits, hsecret⟩ := Hex.decode_eq_some_iff.mp hdecode
    have hne : trimEnd (more.dropWhile isGap) ≠ [] := by
      intro he
      obtain ⟨c, hc, hgapc⟩ := hs
      rw [(trimEnd_eq_nil_iff more).mp he c hc] at hgapc
      contradiction
    have heven : (trimEnd (more.dropWhile isGap)).length % 2 = 0 := by
      have hlength := congrArg List.length hsecret
      rw [Hex.length_encode, List.length_map] at hlength
      omega
    have hmax : n.value ≤ maxId := by
      have := k.id.toInt_lt
      unfold maxId
      omega
    refine ⟨⟨n, n', gap, trimEnd (more.dropWhile isGap), tail⟩, ?_, ⟨?_, ?_, hgap, htail, hdigits,
      hne, heven, ⟨by rwa [hvalue], hmax⟩, k.created, hvalue'.symm, hacc⟩,
      ⟨hvalue.symm, hvalue'.symm, hsecret⟩⟩
    · simp only [Spelling.text, ← hmore]
    · simpa only [← hmore] using hn
    · simpa only [← hmore] using hn'

/-- A line that is refused breaks the requirement that is named. -/
theorem Reading.breaks {fault : LineFault} (h : Reading line now (.error fault)) :
    Breaks line now fault := by
  cases h with
  | malformedId h =>
    exact ⟨[], _, rfl, by simp, fun ⟨id, rest, hid⟩ => h id rest hid⟩
  | idOutOfRange h hr =>
    refine ⟨[.malformedId], _, rfl, by simpa using ⟨_, _, h⟩, ?_⟩
    rintro ⟨rest', id', hid', hr'⟩
    rw [(h.unique hid').1] at hr
    exact hr hr'
  | malformedTimestamp hid h =>
    refine ⟨[.malformedId, .idOutOfRange], _, rfl, by simpa using hid.meets, ?_⟩
    rintro ⟨rest', hid', seconds, more, ht⟩
    rw [hid.unique hid'] at h
    exact h seconds more ht
  | @timestampOutOfRange rest more t hid h ht =>
    refine ⟨[.malformedId, .idOutOfRange, .malformedTimestamp], _, rfl, ?_, ?_⟩
    · simp only [List.forall_mem_cons]
      exact ⟨hid.meets.1, hid.meets.2, ⟨rest, hid, t.toInt, more, h⟩, by simp⟩
    · rintro ⟨more', rest', hid', t', h', ht'⟩
      obtain rfl := hid.unique hid'
      rw [← Int64.toInt_inj.mp (h.unique h').1, ht] at ht'
      contradiction
  | missingSecret ht h =>
    refine ⟨[.malformedId, .idOutOfRange, .malformedTimestamp, .timestampOutOfRange], _, rfl,
      ht.meets, ?_⟩
    rintro ⟨more', ht', c, hc, hgap⟩
    rw [← ht.unique ht'] at hc
    rw [h c hc] at hgap
    contradiction
  | @invalidHex more ht hs h =>
    refine ⟨[.malformedId, .idOutOfRange, .malformedTimestamp, .timestampOutOfRange] ++
      [.missingSecret], _, rfl, ?_, ?_⟩
    · exact List.forall_mem_append.mpr ⟨ht.meets, by simpa using ⟨more, ht, hs⟩⟩
    · rintro ⟨s, rfl, hfits⟩
      have hdigits : ∀ c ∈ s.digits, isGap c = false := fun c hc => (hfits.digits c hc).isGap
      rw [ht.unique hfits.timed, trimEnd_eq hfits.gap hfits.tail hdigits hfits.digits_ne_nil] at h
      obtain ⟨bs, hbs⟩ := Hex.exists_decode hfits.digits hfits.digits_even
      rw [h] at hbs
      contradiction

/-! ### The grammar -/

/-- Reading a line is exact. It gives the key whose values the parts of the line have, if the line
can be spelled by the grammar, and then there is one spelling and a key with its values. Otherwise
it names the leftmost requirement that the line does not meet. -/
theorem parse_grammar (line : List Char) (now : Instant) :
    (∀ k, parse line now = .ok k ↔ ∃ s : Spelling, s.text = line ∧ s.Fits now ∧ s.Spells k) ∧
    (∀ s : Spelling, s.text = line → s.Fits now → (∃ k, s.Spells k) ∧
      ∀ s' : Spelling, s'.text = line → s'.Fits now → s' = s) ∧
    ∀ fault, parse line now = .error fault ↔ Breaks line now fault := by
  have hreading := parse_reading line now
  have hfits : ∀ s : Spelling, s.text = line → s.Fits now → ∃ k, parse line now = .ok k ∧
      s.Spells k := by
    rintro s rfl hs
    generalize parse s.text now = outcome at hreading ⊢
    cases outcome with
    | error fault =>
      obtain ⟨-, -, -, -, hbroken⟩ := hreading.breaks
      exact absurd (hs.meets fault) hbroken
    | ok k =>
      obtain ⟨s', htext, hs', hk⟩ := hreading.spelling
      rw [hs'.unique hs htext] at hk
      exact ⟨k, rfl, hk⟩
  refine ⟨fun k => ⟨fun h => ?_, ?_⟩, fun s htext hs => ⟨?_, fun s' htext' hs' => ?_⟩,
    fun fault => ⟨fun h => ?_, fun h => ?_⟩⟩
  · rw [h] at hreading
    exact hreading.spelling
  · rintro ⟨s, htext, hs, hk⟩
    obtain ⟨k', hparse, hk'⟩ := hfits s htext hs
    rw [hparse, hk'.unique hk]
  · obtain ⟨k, -, hk⟩ := hfits s htext hs
    exact ⟨k, hk⟩
  · exact hs'.unique hs (htext'.trans htext.symm)
  · rw [h] at hreading
    exact hreading.breaks
  · generalize parse line now = outcome at hreading ⊢
    cases outcome with
    | error fault' => rw [hreading.breaks.unique h]
    | ok k =>
      obtain ⟨s, rfl, hs, -⟩ := hreading.spelling
      obtain ⟨-, -, -, -, hbroken⟩ := h
      exact absurd (hs.meets fault) hbroken

/-- A line with a sign before each number and all kinds of blanks. -/
def sampleSpelling : Spelling where
  id := ⟨['\t'], ['-'], "000".toList⟩
  time := ⟨[' ', '\x0b'], ['+'], "01000".toList⟩
  gap := [' ', '\t']
  digits := "aB".toList
  tail := ['\t']

theorem sampleSpelling_fits : sampleSpelling.Fits 1000 where
  id.blanks := List.all_iff_forall_prop.mp (by decide)
  id.sign := by decide
  id.digits := List.all_iff_forall_prop.mp (by decide)
  id.digits_ne_nil := by decide
  id.stop := by
    rintro c ⟨⟩
    decide
  time.blanks := List.all_iff_forall_prop.mp (by decide)
  time.sign := by decide
  time.digits := List.all_iff_forall_prop.mp (by decide)
  time.digits_ne_nil := by decide
  time.stop := by
    rintro c ⟨⟩
    decide
  gap := List.all_iff_forall_prop.mp (by decide)
  tail := List.all_iff_forall_prop.mp (by decide)
  digits := List.all_iff_forall_prop.mp (by decide)
  digits_ne_nil := by decide
  digits_even := by decide
  id_range := by decide
  accepted := ⟨1000, by decide, by decide⟩

/-- Its key is read, and of a line with an identifier that is too large the rest does not
matter. -/
theorem parse_grammar_sample :
    parse sampleSpelling.text 1000 = .ok ⟨0, 1000, [171]⟩ ∧
    (∀ s : Spelling, s.text = sampleSpelling.text → s.Fits 1000 → s = sampleSpelling) ∧
    Breaks "2147483648 x".toList 1000 .idOutOfRange := by
  obtain ⟨hkey, hone, -⟩ := parse_grammar sampleSpelling.text 1000
  have hspells : sampleSpelling.Spells ⟨0, 1000, [171]⟩ := ⟨by decide, by decide, by decide⟩
  exact ⟨(hkey _).mpr ⟨_, rfl, sampleSpelling_fits, hspells⟩, (hone _ rfl sampleSpelling_fits).2,
    ((parse_grammar "2147483648 x".toList 1000).2.2 _).mp (by decide)⟩

end Line

end Keyrings
