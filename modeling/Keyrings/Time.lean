/-! Instants and durations. An instant is a signed 64-bit count of seconds since the start of
1970, and the arithmetic on instants saturates: a result outside the 64-bit range becomes the
nearest end of it. A duration is an exact number of nanoseconds. -/

namespace Keyrings

/-- Whole seconds since the start of 1970, in 64 bits. -/
abbrev Instant := Int64

namespace Instant

def earliest : Int := -9223372036854775808

def latest : Int := 9223372036854775807

/-- The instant nearest to a number of seconds. -/
def clamp (x : Int) : Instant := Int64.ofInt (max earliest (min latest x))

/-- The instant `s` seconds after `t`, saturating at both ends. -/
def plus (t : Instant) (s : Int) : Instant := clamp (t.toInt + s)

/-- The seconds from `t` to `now`, saturating at both ends. -/
def since (now t : Instant) : Int64 := clamp (now.toInt - t.toInt)

/-- A number of seconds inside the range is its own nearest instant. -/
theorem toInt_clamp_of_le {x : Int} (lo : earliest ≤ x) (hi : x ≤ latest) :
    (clamp x).toInt = x := by
  have h : max earliest (min latest x) = x := by omega
  unfold clamp
  rw [h]
  unfold earliest at lo
  unfold latest at hi
  exact Int64.toInt_ofInt_of_le (by omega) (by omega)

/-- Saturation on the integers: the nearest point of the 64-bit range. -/
theorem toInt_clamp (x : Int) : (clamp x).toInt = max earliest (min latest x) := by
  unfold clamp
  have lo : earliest ≤ max earliest (min latest x) := by omega
  have hi : max earliest (min latest x) ≤ latest := by
    have : earliest ≤ latest := by decide
    omega
  revert lo hi
  generalize max earliest (min latest x) = y
  intro lo hi
  unfold earliest at lo
  unfold latest at hi
  exact Int64.toInt_ofInt_of_le (by omega) (by omega)

end Instant

/-- A length of time, exact to the nanosecond. -/
structure Duration where
  nanos : Nat
  deriving DecidableEq, Repr

namespace Duration

def perSecond : Nat := 1000000000

theorem perSecond_pos : 0 < perSecond := Nat.zero_lt_succ _

def ofMillis (n : Nat) : Duration := ⟨n * 1000000⟩

def ofSeconds (secs nanos : Nat) : Duration := ⟨secs * perSecond + nanos⟩

def seconds (d : Duration) : Nat := d.nanos / perSecond

def subsecond (d : Duration) : Nat := d.nanos % perSecond

def millis (d : Duration) : Nat := d.nanos / 1000000

/-- The first number of whole seconds that a duration is too short to hold. -/
def secondsBound : Nat := 18446744073709551616

/-- `n` times a duration, if its seconds still fit into 64 bits. -/
def times? (d : Duration) (n : Nat) : Option Duration :=
  let product : Duration := ⟨d.nanos * n⟩
  if product.seconds < secondsBound then some product else none

end Duration

end Keyrings
