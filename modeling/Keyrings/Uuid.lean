import Keyrings.Hex

/-! Random identifiers of 128 bits. They name temporary files, and their text always has 36
characters. -/

namespace Keyrings

structure Uuid where
  bits : BitVec 128
  deriving DecidableEq

namespace Uuid

/-- The last `n` hexadecimal digits of a number. -/
def digits (bits : Nat) : Nat → List Char
  | 0 => []
  | n + 1 => digits (bits / 16) n ++ [Hex.digit (bits % 16)]

@[simp] theorem length_digits (bits n : Nat) : (digits bits n).length = n := by
  induction n generalizing bits with
  | zero => rfl
  | succ n ih => simp [digits, ih]

/-- Groups of 8, 4, 4, 4 and 12 digits with hyphens between them. -/
def text (u : Uuid) : List Char :=
  let all := digits u.bits.toNat 32
  all.take 8 ++ '-' :: ((all.drop 8).take 4 ++ '-' :: ((all.drop 12).take 4 ++
    '-' :: ((all.drop 16).take 4 ++ '-' :: all.drop 20)))

theorem length_text (u : Uuid) : u.text.length = 36 := by
  simp [text]

/-- The identifier made of sixteen bytes, the first one highest, marked as one of the random kind:
the thirteenth digit is 4, and the seventeenth starts with the bits 10. -/
def ofRandomBytes (bytes : List UInt8) : Uuid :=
  let marked := (bytes.take 16).mapIdx fun i b =>
    if i = 6 then b % 16 + 64 else if i = 8 then b % 64 + 128 else b
  ⟨BitVec.ofNat 128 (marked.foldl (fun acc b => acc * 256 + b.toNat) 0)⟩

end Uuid

end Keyrings
