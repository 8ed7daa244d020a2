import Strongbox.Failure

/-!
# Ownership

Every call finds out here whose records it may touch.
-/

namespace Strongbox.Guard

def unnamed : VaultError := .invalid "no user ID provided"

/-- The owner for a request that names its user: the caller, if it is named. -/
def authorize (caller : Int) (named : Option Int) : Outcome Int :=
  match named with
  | none => Outcome.reject unnamed
  | some user =>
    if user = 0 then Outcome.reject unnamed
    else if user = caller then .ok caller
    else Outcome.reject (.of .authorization)

def ownerOf (caller : Int) : Outcome Int :=
  if caller = 0 then Outcome.reject unnamed else .ok caller

end Strongbox.Guard
