import Strongbox.Binary64
import Strongbox.Failure

/-!
# What comes of a call to the store

A call is given a number of seconds. What the store itself reports as a failure becomes an error of the
vault, which says whether it makes sense to try again; other errors stay what they are.
-/

namespace Strongbox.Store

inductive Breakdown where
  | operation
  | statement (connectionLost : Bool)
  | access
  deriving DecidableEq, Repr

namespace Breakdown

/-- A breakdown may pass if it was the database's own trouble, or if the connection was lost. -/
def isRetryable : Breakdown → Bool
  | operation => true
  | statement connectionLost => connectionLost
  | access => false

def toFailure (b : Breakdown) : Failure := .vault (.of (.internal b.isRetryable))

end Breakdown

inductive Attempt (α : Type) where
  | finished (result : α)
  | failed (f : Failure)
  | brokeDown (b : Breakdown)
  | ranOut
  deriving DecidableEq, Repr

def cancelled : Failure := .vault (.of .cancelled)

namespace Attempt

def settle : Attempt α → Outcome α
  | finished x => .ok x
  | failed f => .error f
  | brokeDown b => .error b.toFailure
  | ranOut => .error cancelled

/-- A call that takes `duration` seconds and may take fewer than `timeout`. Without any time it does not even
start. -/
def within (timeout duration : Binary64) (a : Attempt α) : Attempt α :=
  if !timeout.isPositive || timeout.le duration then ranOut else a

end Attempt

end Strongbox.Store
