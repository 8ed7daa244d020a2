import Strongbox.Integrity.Canonical
import Strongbox.Integrity.HasherPool
import Strongbox.Schema.Body

/-!
# The integrity gate

The body of a batch is read once on its own, and the hash that it brings has to be the code of its items.
-/

namespace Strongbox.Integrity

def notABatch : VaultError := .invalid "invalid JSON was passed"

def checkBatch (pool : Option HasherPool) (check : Json → Schema.Checked α) (form? : α → Option Bytes)
    (supplied : α → Text) (body : Bytes) : Outcome Unit :=
  match pool with
  | none => Outcome.fail .unavailable
  | some pool =>
    match Schema.document check body with
    | .error _ => Outcome.reject notABatch
    | .ok batch =>
      match form? batch with
      | none => Outcome.fail .unencodable
      | some form => do
        if ← pool.verify form (supplied batch) then .ok () else Outcome.reject (.of .integrity)

def checkUpload (pool : Option HasherPool) (body : Bytes) : Outcome Unit :=
  checkBatch pool Upload.check (fun b => uploadForm? b.items) (·.hash) body

def checkUpdate (pool : Option HasherPool) (body : Bytes) : Outcome Unit :=
  checkBatch pool Update.check (fun b => updateForm? b.items) (·.hash) body

end Strongbox.Integrity
