/-! Hexadecimal text. Bytes are written with two lower-case digits each and read back in either
case. -/

namespace Keyrings.Hex

/-- The lower-case digit of a number below 16. -/
def digit (n : Nat) : Char := if n < 10 then Char.ofNat (48 + n) else Char.ofNat (87 + n)

def value? (c : Char) : Option Nat :=
  if '0' ≤ c ∧ c ≤ '9' then some (c.toNat - 48)
  else if 'a' ≤ c ∧ c ≤ 'f' then some (c.toNat - 87)
  else if 'A' ≤ c ∧ c ≤ 'F' then some (c.toNat - 55)
  else none

/-- Two digits a byte, the high one first. -/
def encode : List UInt8 → List Char
  | [] => []
  | b :: bs => digit (b.toNat / 16) :: digit (b.toNat % 16) :: encode bs

/-- The bytes of a text of digit pairs; nothing if a digit is left over or a character is no
digit. -/
def decode : List Char → Option (List UInt8)
  | [] => some []
  | [_] => none
  | h :: l :: rest => do
    let high ← value? h
    let low ← value? l
    let bytes ← decode rest
    some (UInt8.ofNat (16 * high + low) :: bytes)

/-- A digit that was written reads back. -/
theorem value?_digit {n : Nat} (h : n < 16) : value? (digit n) = some n := by
  have all : ∀ n ∈ List.range 16, value? (digit n) = some n := by decide
  exact all n (List.mem_range.mpr h)

/-- Every list of bytes reads back from its digits. -/
theorem decode_encode (bs : List UInt8) : decode (encode bs) = some bs := by
  induction bs with
  | nil => rfl
  | cons b bs ih =>
    have hb : b.toNat < 256 := b.toNat_lt
    have high : value? (digit (b.toNat / 16)) = some (b.toNat / 16) := value?_digit (by omega)
    have low : value? (digit (b.toNat % 16)) = some (b.toNat % 16) := value?_digit (by omega)
    have byte : UInt8.ofNat (16 * (b.toNat / 16) + b.toNat % 16) = b := by
      rw [Nat.div_add_mod, UInt8.ofNat_toNat]
    simp only [encode, decode, high, low, ih, byte, Option.bind_eq_bind, Option.bind_some]

/-- Two digits stand for each byte. -/
theorem length_encode (bs : List UInt8) : (encode bs).length = 2 * bs.length := by
  induction bs with
  | nil => rfl
  | cons b bs ih => simp only [encode, List.length_cons, ih]; omega

end Keyrings.Hex
