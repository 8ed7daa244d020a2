import Strongbox.Accounts
import Strongbox.Store.Database
import Strongbox.Sync.States
import Strongbox.Vault.Read

/-!
# Calls of the vault

All services as one type of calls with one type of answers, so that whole runs can be spoken of.
-/

namespace Strongbox.Vault

open Store

inductive Call where
  | upload (caller : Int) (request : Upload)
  | update (caller : Int) (request : Update)
  | delete (caller : Int) (request : Deletion)
  | download (caller : Int) (request : Selection)
  | downloadAll (caller : Int)
  | allStates (caller : Int)
  | specificStates (caller : Int) (request : Selection)
  | compare (caller : Int) (request : Comparison)
  | register (random : Bytes) (request : Registration)
  | login (request : Credentials)
  | params (caller : Int)
  deriving DecidableEq, Repr

inductive Answer where
  | records (views : List RecordView)
  | states (states : List Descriptor)
  | plan (p : Plan)
  | account (a : Account)
  | done
  deriving DecidableEq, Repr

def Call.routine (now : Int) : Call → Routine Answer
  | .upload caller request => (Vault.upload caller now request).bind fun views => pure (.records views)
  | .update caller request => (Vault.update caller now request).bind fun () => pure .done
  | .delete caller request => (Vault.delete caller now request).bind fun () => pure .done
  | .download caller request => (Vault.download caller request).bind fun views => pure (.records views)
  | .downloadAll caller => (Vault.downloadAll caller).bind fun views => pure (.records views)
  | .allStates caller => (Sync.allStates caller).bind fun states => pure (.states states)
  | .specificStates caller request =>
    (Sync.specificStates caller request).bind fun states => pure (.states states)
  | .compare caller request => (Sync.compare caller request).bind fun p => pure (.plan p)
  | .register random request => (Accounts.register random request).bind fun a => pure (.account a)
  | .login request => (Accounts.login request).bind fun a => pure (.account a)
  | .params caller => (Accounts.params caller).bind fun a => pure (.account a)

end Strongbox.Vault
