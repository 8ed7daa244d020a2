import Strongbox.Sync.Classify
import Strongbox.Vault.Read

/-!
# Descriptors for clients

Descriptors tell a client what changed, deletions included.
-/

namespace Strongbox.Sync

open Store

def logger : Text := Text.ofString "passvault.app.services.sync"

def checkIds (ids : List Text) : Except VaultError Unit :=
  if ids.any Text.blank then .error (.invalid "empty client ID provided for sync") else .ok ()

def allStates : (caller : Int) → Routine (List Descriptor) :=
  Vault.readAll Tables.ofOwner Record.descriptor

def specificStates : (caller : Int) → Selection → Routine (List Descriptor) :=
  Vault.readAmong Tables.ofOwner Record.descriptor "no client IDs provided for sync" checkIds

def planSizes (p : Plan) : Text :=
  Text.ofString "download=" ++ Text.ofNat p.download.length ++
    Text.ofString " upload=" ++ Text.ofNat p.upload.length ++
    Text.ofString " update=" ++ Text.ofNat p.update.length ++
    Text.ofString " delete_client=" ++ Text.ofNat p.deleteClient.length ++
    Text.ofString " delete_server=" ++ Text.ofNat p.deleteServer.length

def compare (caller : Int) (request : Comparison) : Routine Plan := do
  let owner ← Guard.ownerFor caller request.userId
  Vault.ofCheck (checkIds (request.states.map (·.recordId)))
  let rows ← Routine.statement (selectRows Tables.ofOwner owner)
  let result := plan (rows.map Record.descriptor) request.states
  .say .info logger (Text.ofString "sync plan for user " ++ Text.ofInt owner ++ Text.ofString ": " ++
    planSizes result)
  pure result

end Strongbox.Sync
