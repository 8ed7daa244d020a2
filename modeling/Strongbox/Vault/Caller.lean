import Strongbox.Store.Statements
import Strongbox.Vault.Guard

/-!
# Callers

The ownership check as the first step of a call. An attempt on somebody else's records leaves a notice.
-/

namespace Strongbox.Guard

open Store

def logger : Text := Text.ofString "passvault.app.services.guard"

def intrusion (caller named : Int) : Routine Unit :=
  .say .warning logger (Text.ofString "user " ++ Text.ofInt caller ++
    Text.ofString " tried to access data of user " ++ Text.ofInt named)

def ownerFor (caller : Int) (named : Option Int) : Routine Int :=
  match authorize caller named, named with
  | .ok owner, _ => pure owner
  | .error (.vault e), some user =>
    if e.kind = .authorization then do
      intrusion caller user
      .reject e
    else .reject e
  | .error e, _ => .ofOutcome (.error e)

end Strongbox.Guard
