import Keyrings.Key
import Keyrings.Routine

/-! New keys. The identifier is the absolute value of a random 32-bit number, drawn again while it
is taken or has no absolute value; the secret is drawn after it. -/

namespace Keyrings

def maxIdAttempts : Nat := 64

def idLength : Nat := 4

/-- The number written in some bytes, the lowest byte first. -/
def littleEndian : List UInt8 → Nat
  | [] => 0
  | b :: bs => b.toNat + 256 * littleEndian bs

/-- The absolute value of a signed 32-bit number, if it is one too. -/
def absolute? (x : Int32) : Option Int32 :=
  if x = Int32.minValue then none else some (Int32.ofInt x.toInt.natAbs)

/-- The identifier in a draw, if it can be used beside some keys. -/
def usableId? (existing : List Key) (draw : List UInt8) : Option Int32 :=
  (absolute? (Int32.ofNat (littleEndian draw))).filter fun id => !hasId existing id

/-- Draws identifiers until one can be used, at most the given number of times. -/
def drawId (existing : List Key) : Nat → Routine (Except Fault Int32)
  | 0 => pure (.error (.failed (.noFreeId maxIdAttempts)))
  | n + 1 => do
    match ← Routine.request (.draw idLength) with
    | .error fault => pure (.error fault)
    | .ok block =>
      match usableId? existing block.bytes with
      | some id => pure (.ok id)
      | none => drawId existing n

/-- Makes a key at the time `now` with an identifier that no existing key has. -/
def freshKey (existing : List Key) (now : Instant) : Routine (Except Fault Key) := do
  match ← drawId existing maxIdAttempts with
  | .error fault => pure (.error fault)
  | .ok id =>
    match ← Routine.request (.draw secretLength) with
    | .error fault => pure (.error fault)
    | .ok secret => pure (.ok ⟨id, now, secret.bytes⟩)

end Keyrings
