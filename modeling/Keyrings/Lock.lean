import Keyrings.Routine

/-! The lock of a keyring: a marker file that whoever holds the lock has created. Somebody who
finds the marker in place waits and tries again, a bounded number of times; then the marker is
taken for abandoned and replaced. The marker does not say whose it is. -/

namespace Keyrings

/-- How long to wait for a marker to go away. -/
structure LockPolicy where
  /-- How many attempts are made, each followed by a sleep, before the marker is taken for
  abandoned. -/
  maxTimeouts : Nat := 32
  /-- The sleep after each of these attempts. -/
  timeout : Duration := Duration.ofMillis 250
  deriving DecidableEq

namespace LockPolicy

/-- The policy of a keyring that was given none. -/
def standard : LockPolicy := {}

/-- All sleeps together, if their seconds fit into 64 bits. -/
def worstCaseWait? (p : LockPolicy) : Option Duration := p.timeout.times? p.maxTimeouts

end LockPolicy

/-- The mode of markers and keyring files: for their owner alone. -/
def privateFileMode : Mode := 0o600

/-- A lock that is held, by the path of its marker. -/
structure Lock where
  marker : Path
  deriving DecidableEq

namespace Lock

/-- Takes the lock after the last wait: removes the marker if it can, and creates it. -/
def seize (marker : Path) : Routine (Except Fault Lock) := do
  let _ ← Routine.request (.remove marker)
  match ← Routine.request (.create marker privateFileMode) with
  | .ok _ => pure (.ok ⟨marker⟩)
  | .error e => pure (.error (.failed (.markerStuck marker e)))

/-- Tries to create the marker, with a sleep after each failure, and seizes the lock when no
attempt is left. -/
def attempt (marker : Path) (timeout : Duration) : Nat → Routine (Except Fault Lock)
  | 0 => seize marker
  | n + 1 => do
    match ← Routine.request (.create marker privateFileMode) with
    | .ok _ => pure (.ok ⟨marker⟩)
    | .error _ =>
      let _ ← Routine.request (.sleep timeout)
      attempt marker timeout n

def acquire (marker : Path) (policy : LockPolicy) : Routine (Except Fault Lock) :=
  attempt marker policy.timeout policy.maxTimeouts

/-- Removes a marker, whoever created it. That there is none does not matter. -/
def releasePath (marker : Path) : Routine Unit := do
  let _ ← Routine.request (.remove marker)

def release (lock : Lock) : Routine Unit := releasePath lock.marker

end Lock

end Keyrings
