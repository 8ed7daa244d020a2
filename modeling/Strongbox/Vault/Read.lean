import Strongbox.Vault.Batch

/-!
# Reading records

An owner's rows are read in the order of their numbers, all of them or those of some ids, and told in some
form. Only live records are handed out.
-/

namespace Strongbox.Vault

open Store

/-- The first id that is blank decides the error. -/
def checkIds (index : Nat) : List Text → Except VaultError Unit
  | [] => .ok ()
  | id :: rest =>
    if id.blank then .error (emptyField index "client_side_id") else checkIds (index + 1) rest

section Rows

variable (rows : Tables → Int → List Record) (form : Record → α)

def readAll (caller : Int) : Routine (List α) := do
  let owner ← Routine.ofOutcome (Guard.ownerOf caller)
  let found ← Routine.statement (selectRows rows owner)
  pure (found.map form)

def readAmong (missing : String) (check : List Text → Except VaultError Unit) (caller : Int)
    (request : Selection) : Routine (List α) := do
  let owner ← Guard.ownerFor caller request.userId
  if request.recordIds.isEmpty then .reject (.invalid missing)
  else do
    ofCheck (check request.recordIds)
    let found ← Routine.statement (selectAmong rows owner request.recordIds)
    pure (found.map form)

end Rows

def download : (caller : Int) → Selection → Routine (List RecordView) :=
  readAmong Tables.liveOf (Record.view none) "no download requests provided" (checkIds 0)

def downloadAll : (caller : Int) → Routine (List RecordView) := readAll Tables.liveOf (Record.view none)

end Strongbox.Vault
