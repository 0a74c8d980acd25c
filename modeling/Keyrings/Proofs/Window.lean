import Keyrings.Key

/-! The windows of a key on the integers. Saturation never decides a comparison: an instant is
inside its 64-bit range anyway, so that each window is the interval that unbounded arithmetic gives.
A key from the start of the range is the one exception, and it is never recent. -/

namespace Keyrings

theorem Instant.earliest_le (t : Instant) : earliest ≤ t.toInt := by
  have := t.le_toInt
  unfold earliest
  omega

theorem Instant.le_latest (t : Instant) : t.toInt ≤ latest := by
  have := t.toInt_lt
  unfold latest
  omega

/-- A bound inside the range cuts the seconds between two instants where it cuts the exact ones. -/
theorem Instant.since_lt_iff (now t : Instant) {s : Int} (lo : earliest < s) (hi : s ≤ latest) :
    (now.since t).toInt < s ↔ now.toInt - t.toInt < s := by
  rw [since, toInt_clamp]
  omega

/-- The window of acceptance, from the age of expiry to the greatest lead over the clock. -/
theorem isAcceptable_iff (t now : Instant) : isAcceptable t now = true ↔
    0 ≤ t.toInt ∧ t.toInt ≤ now.toInt + aheadBy ∧ now.toInt - keptFor ≤ t.toInt := by
  have ht := Instant.earliest_le t
  have ht' := Instant.le_latest t
  have hn := Instant.earliest_le now
  have hn' := Instant.le_latest now
  simp only [isAcceptable, Bool.and_eq_true, decide_eq_true_eq, Int64.le_iff_toInt_le,
    Instant.plus, Instant.toInt_clamp, Int64.toInt_zero]
  unfold Instant.earliest at *
  unfold Instant.latest at *
  unfold aheadBy keptFor
  omega

namespace Key

theorem isWithinLifetime_iff (k : Key) (now : Instant) : k.isWithinLifetime now = true ↔
    0 ≤ k.created.toInt ∧ k.created.toInt ≤ now.toInt + aheadBy ∧
      now.toInt - keptFor ≤ k.created.toInt :=
  isAcceptable_iff k.created now

/-- The window in which a key is handed out, which has no end ahead of the clock. -/
theorem isRecent_iff (k : Key) (now : Instant) : k.isRecent now = true ↔
    now.toInt - recentFor < k.created.toInt ∧ Instant.earliest < k.created.toInt := by
  have hn := Instant.earliest_le now
  have hn' := Instant.le_latest now
  simp only [isRecent, decide_eq_true_eq, Int64.lt_iff_toInt_lt, Instant.plus,
    Instant.toInt_clamp]
  unfold Instant.earliest at *
  unfold Instant.latest at *
  unfold recentFor
  omega

/-- The age of a key decides, if it was not created at the start of the range. -/
theorem isRecent_iff_age {k : Key} (now : Instant) (h : Instant.earliest < k.created.toInt) :
    k.isRecent now = true ↔ (k.age now).toInt < recentFor := by
  rw [age, Instant.since_lt_iff now k.created (by decide) (by decide), isRecent_iff]
  omega

/-- A key that is recent was so at every earlier time. -/
theorem isRecent_of_le {k : Key} {t now : Instant} (ht : t.toInt ≤ now.toInt)
    (h : k.isRecent now = true) : k.isRecent t = true := by
  rw [isRecent_iff] at h ⊢
  omega

theorem isWithinLifetime_created {k : Key} (h : 0 ≤ k.created.toInt) :
    k.isWithinLifetime k.created = true := by
  rw [isWithinLifetime_iff]
  unfold aheadBy keptFor
  omega

/-- A recent key may be kept for two minutes more, if it does not lie too far ahead. -/
theorem isWithinLifetime_of_isRecent {k : Key} {t now : Instant} (h : k.isRecent t = true)
    (h0 : 0 ≤ k.created.toInt) (ha : k.created.toInt ≤ now.toInt + aheadBy)
    (hn : now.toInt ≤ t.toInt + (keptFor - recentFor)) : k.isWithinLifetime now = true := by
  rw [isRecent_iff] at h
  rw [isWithinLifetime_iff]
  omega

/-- A key that may be kept might have been kept before, if it did not lie too far ahead then. -/
theorem isWithinLifetime_of_le {k : Key} {t now : Instant} (ht : t.toInt ≤ now.toInt)
    (ha : k.created.toInt ≤ t.toInt + aheadBy) (h : k.isWithinLifetime now = true) :
    k.isWithinLifetime t = true := by
  rw [isWithinLifetime_iff] at h ⊢
  omega

end Key

/-- The windows have their plain meaning for all 64-bit instants. Acceptance is the interval from
seven minutes before the clock to five minutes after it, without what lies before 1970. A key is
recent below an age of five minutes, whether that age saturates or not, and a key from the very
start of the range never is. A key that is recent and accepted is accepted for two minutes more. -/
theorem windows_exact (now : Instant) :
    (∀ t : Instant, isAcceptable t now = true ↔
      0 ≤ t.toInt ∧ now.toInt - 420 ≤ t.toInt ∧ t.toInt ≤ now.toInt + 300) ∧
    ∀ k : Key, k.isWithinLifetime now = isAcceptable k.created now ∧
      (Int64.minValue < k.created →
        (k.isRecent now = true ↔ now.toInt - k.created.toInt < 300) ∧
        (k.isRecent now = true ↔ k.age now < 300)) ∧
      (k.created = Int64.minValue → k.isRecent now = false) ∧
      (k.isRecent now = true → isAcceptable k.created now = true →
        ∀ later : Instant, now ≤ later → later.toInt ≤ now.toInt + 120 →
          isAcceptable k.created later = true) := by
  refine ⟨fun t => ?_, fun k => ⟨rfl, fun h => ⟨?_, ?_⟩, fun h => ?_,
    fun hr ha later hle hend => ?_⟩⟩
  · rw [isAcceptable_iff]
    unfold aheadBy keptFor
    omega
  · rw [Key.isRecent_iff]
    have hearly : Instant.earliest < k.created.toInt := Int64.lt_iff_toInt_lt.mp h
    unfold recentFor
    omega
  · rw [Key.isRecent_iff_age now (Int64.lt_iff_toInt_lt.mp h), Int64.lt_iff_toInt_lt]
    rfl
  · rw [Bool.eq_false_iff, ne_eq, Key.isRecent_iff, h]
    exact fun hr => absurd hr.2 (by decide)
  · rw [isAcceptable_iff] at ha
    rw [Int64.le_iff_toInt_le] at hle
    refine Key.isWithinLifetime_of_isRecent hr ha.1 (by omega) ?_
    unfold keptFor recentFor
    omega

/-- At the end of the range the windows hold with every bound saturated, and so they do for the
oldest keys. -/
theorem windows_exact_ends :
    Key.isRecent ⟨1, Int64.maxValue - 419, []⟩ (Int64.maxValue - 120) = true ∧
    isAcceptable (Int64.maxValue - 419) Int64.maxValue = true ∧
    Key.isRecent ⟨1, Int64.minValue + 1, []⟩ Int64.maxValue = false ∧
    Key.isRecent ⟨1, Int64.minValue, []⟩ Int64.minValue = false := by
  obtain ⟨haccept, hkey⟩ := windows_exact (Int64.maxValue - 120)
  obtain ⟨-, hrecent, -, hlater⟩ := hkey ⟨1, Int64.maxValue - 419, []⟩
  have hr := (hrecent (by decide)).1.mpr (by decide)
  have ha := (haccept (Int64.maxValue - 419)).mpr (by decide)
  obtain ⟨-, hold, -⟩ := (windows_exact Int64.maxValue).2 ⟨1, Int64.minValue + 1, []⟩
  obtain ⟨-, -, holdest, -⟩ := (windows_exact Int64.minValue).2 ⟨1, Int64.minValue, []⟩
  refine ⟨hr, hlater hr ha Int64.maxValue (by decide) (by decide), ?_, holdest rfl⟩
  rw [Bool.eq_false_iff, ne_eq, (hold (by decide)).2]
  decide

end Keyrings
