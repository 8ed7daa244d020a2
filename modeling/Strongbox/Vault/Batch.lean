import Strongbox.Clock
import Strongbox.Text.Blank
import Strongbox.Text.Quoted
import Strongbox.Vault.Caller

/-!
# Batches of writes

Uploads create records at version zero. Updates and deletions name the version that the client saw; they
are applied only while it is still the stored one, and make it one higher. A batch is one transaction.
-/

namespace Strongbox.Vault

open Store

def logger : Text := Text.ofString "passvault.app.services.vault"

def invalid (message : Text) : VaultError := .of .validation message

def emptyField (index : Nat) (name : String) : VaultError :=
  invalid (Text.ofString "invalid data provided: " ++ Text.ofString name ++
    Text.ofString " is empty at index " ++ Text.ofNat index)

def missingVersion (index : Nat) : VaultError :=
  invalid (Text.ofString "version is not specified at index " ++ Text.ofNat index)

def negativeVersion (index : Nat) : VaultError :=
  invalid (Text.ofString "invalid data provided: negative version at index " ++ Text.ofNat index)

/-- The first of the conditions that does not hold decides the error. -/
def firstBroken (conditions : List (Bool × VaultError)) : Except VaultError Unit :=
  match conditions.find? fun c => !c.1 with
  | some (_, e) => .error e
  | none => .ok ()

def checkNew (index : Nat) (item : NewRecord) : Except VaultError Unit :=
  firstBroken [(!item.recordId.blank, emptyField index "client_side_id"),
    (!item.payload.isEmpty, emptyField index "payload"),
    (!item.hash.blank, emptyField index "hash")]

def namedVersion (index : Nat) : Option Int → Except VaultError Int
  | none => .error (missingVersion index)
  | some version => if version < 0 then .error (negativeVersion index) else .ok version

def checkContents (index : Nat) : Option (Text × Text) → Except VaultError Unit
  | some (payload, hash) => firstBroken [(!payload.isEmpty, emptyField index "payload"),
    (!hash.blank, emptyField index "hash")]
  | none => .ok ()

def checkAmendment (index : Nat) (item : Amendment) : Except VaultError Int := do
  firstBroken [(!item.recordId.blank, emptyField index "client_side_id")]
  let version ← namedVersion index item.version
  checkContents index item.contents
  pure version

def conflict (recordId : Text) : VaultError := .of .uniquenessConflict [] (some recordId)

/-- New records are filled in, and no id comes twice. -/
def checkUpload (index : Nat) (seen : List Text) : List NewRecord → Except VaultError Unit
  | [] => .ok ()
  | item :: rest => do
    checkNew index item
    if item.recordId ∈ seen then .error (conflict item.recordId)
    else checkUpload (index + 1) (item.recordId :: seen) rest

def checkEach (index : Nat) : List Amendment → Except VaultError (List (Amendment × Int))
  | [] => .ok []
  | item :: rest => do
    let version ← checkAmendment index item
    let others ← checkEach (index + 1) rest
    pure ((item, version) :: others)

def ofCheck (x : Except VaultError α) : Routine α := .ofOutcome (x.mapError .vault)

def recordOf (recordId : Text) (owner : Int) : Text :=
  recordId.quoted ++ Text.ofString " of user " ++ Text.ofInt owner

def sayCount (verb : String) (count : Nat) (owner : Int) : Routine Unit :=
  .say .info logger (Text.ofString verb ++ [32] ++ Text.ofNat count ++ Text.ofString " records for user " ++
    Text.ofInt owner)

/-- The transaction of an upload: no id may be taken, and then all items are added. -/
def insertBatch (owner now : Int) (items : List NewRecord) : Routine (List Record) := do
  match ← Routine.statement (selectTaken owner (items.map (·.recordId))) with
  | some taken => do
    .say .warning logger (Text.ofString "record " ++ recordOf taken owner ++
      Text.ofString " already exists")
    .reject (conflict taken)
  | none =>
    match ← Routine.statement (insertRecords owner now items) with
    | some rows => pure rows
    | none => do
      .say .warning logger (Text.ofString "unique constraint violated on upload for user " ++
        Text.ofInt owner ++
        Text.ofString ": UNIQUE constraint failed: records.user_id, records.client_side_id")
      .reject (.of .uniquenessConflict)

def upload (caller now : Int) (request : Upload) : Routine (List RecordView) := do
  let owner ← Guard.ownerFor caller request.userId
  if request.items.isEmpty then .reject (.invalid "no private data provided")
  else do
    ofCheck (checkUpload 0 [] request.items)
    let now ← Routine.ofOutcome (Clock.read now)
    let rows ← insertBatch owner now request.items
    sayCount "uploaded" rows.length owner
    pure (rows.map (Record.view (some 0)))

/-- Why no record had the version: there is none that is live, or it moved on. -/
def explain (owner : Int) (recordId : Text) (version : Int) : Routine Unit := do
  let found ← Routine.statement (selectRecord owner recordId)
  match found with
  | none => gone
  | some r =>
    if r.deleted then gone
    else do
      .say .warning logger (Text.ofString "version conflict on " ++ recordOf recordId owner ++
        Text.ofString ": stored=" ++ Text.ofInt r.version ++ Text.ofString " provided=" ++
        Text.ofInt version)
      .reject (.of .versionConflict [] (some recordId))
where
  gone : Routine Unit := do
    .say .warning logger (Text.ofString "record " ++ recordOf recordId owner ++
      Text.ofString " not found")
    .reject (.of .notFound [] (some recordId))

/-- Makes one amendment after the other; each must find its record at the named version. -/
def amendEach (owner now : Int) : List (Amendment × Int) → Routine Unit
  | [] => pure ()
  | (item, version) :: rest => do
    let count ← Routine.statement (amendRecord owner now item version)
    if count = 0 then explain owner item.recordId version else pure ()
    amendEach owner now rest

/-- Updates and deletions; they differ in the message for an empty batch and in the verb of the notice. -/
def amend (missing verb : String) (caller now : Int) (named : Option Int) (items : List Amendment) :
    Routine Unit := do
  let owner ← Guard.ownerFor caller named
  if items.isEmpty then .reject (.invalid missing)
  else do
    let checked ← ofCheck (checkEach 0 items)
    let now ← Routine.ofOutcome (Clock.read now)
    amendEach owner now checked
    sayCount verb items.length owner

def update (caller now : Int) (request : Update) : Routine Unit :=
  amend "no update requests provided" "updated" caller now request.userId
    (request.items.map Revision.amendment)

def delete (caller now : Int) (request : Deletion) : Routine Unit :=
  amend "no delete requests provided" "tombstoned" caller now request.userId
    (request.entries.map Removal.amendment)

end Strongbox.Vault
