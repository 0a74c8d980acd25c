/-! Plain text: bytes from 1 to 127, each of which is a character. -/

namespace Keyrings.Text.Plain

/-- Whether bytes are plain text: no NUL and nothing above U+007F. -/
def isPlain (bytes : List UInt8) : Bool := bytes.all fun b => 1 ≤ b && b ≤ 127

/-- The characters with the codes of some bytes. -/
def characters (bytes : List UInt8) : List Char := bytes.map fun b => Char.ofNat b.toNat

/-- The bytes with the codes of some characters of plain text. -/
def bytes (cs : List Char) : List UInt8 := cs.map fun c => UInt8.ofNat c.toNat

/-- Characters of plain text are told by their bytes. -/
theorem characters_bytes {cs : List Char} (h : ∀ c ∈ cs, c.toNat < 128) :
    characters (bytes cs) = cs := by
  unfold characters bytes
  rw [List.map_map]
  conv => rhs; rw [← List.map_id cs]
  refine List.map_congr_left fun c hc => ?_
  have hlt := h c hc
  have same : (UInt8.ofNat c.toNat).toNat = c.toNat := by
    rw [UInt8.toNat_ofNat']
    omega
  simp only [Function.comp, same, Char.ofNat_toNat, id]

end Keyrings.Text.Plain
