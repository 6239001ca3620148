/-!
# Locks and unlock attempts

A SIM or device lock allows a few attempts at its code.  `UnlockRetries` holds how many are left for
each lock that could be read; there is at most one entry for a lock, in the order in which the locks
were first set.
-/

namespace Cellular

/-- A lock with a counter of attempts. -/
inductive Lock where
  /-- The PIN of the SIM. -/
  | simPin
  /-- The unblocking code of the SIM. -/
  | simPuk
  /-- The second PIN of the SIM. -/
  | simPin2
  /-- The unblocking code of the second PIN. -/
  | simPuk2
  /-- The lock of the device to its first SIM. -/
  | phFsimPin
  /-- The unblocking code of that lock. -/
  | phFsimPuk
  /-- The lock of the device to a network. -/
  | phNetPin
  /-- The unblocking code of that lock. -/
  | phNetPuk
  deriving DecidableEq, Repr

/-- Attempts left, for the locks that are known. -/
structure UnlockRetries where
  /-- The locks with their attempts, in the order they were first set. -/
  entries : List (Lock × Nat) := []
  deriving DecidableEq, Repr

namespace UnlockRetries

/-- How many locks there is room for: every kind of lock has a place. -/
def capacity : Nat := 8

/-- The entries with the attempts of `lock` replaced, or added behind them while there is room. -/
def setIn (room : Nat) (lock : Lock) (retries : Nat) : List (Lock × Nat) → List (Lock × Nat)
  | [] => if room = 0 then [] else [(lock, retries)]
  | e :: es =>
    if e.1 = lock then (lock, retries) :: es else e :: setIn (room - 1) lock retries es

/-- Record the attempts left for a lock. -/
def set (r : UnlockRetries) (lock : Lock) (retries : Nat) : UnlockRetries :=
  ⟨setIn capacity lock retries r.entries⟩

/-- The attempts left for a lock, if known. -/
def get? (r : UnlockRetries) (lock : Lock) : Option Nat :=
  (r.entries.find? (·.1 = lock)).map Prod.snd

/-- How many locks are known. -/
def size (r : UnlockRetries) : Nat := r.entries.length

/-- Whether no lock is known. -/
def isEmpty (r : UnlockRetries) : Bool := r.entries.isEmpty

end UnlockRetries

end Cellular
