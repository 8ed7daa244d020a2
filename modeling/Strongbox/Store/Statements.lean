import Strongbox.Store.Routine

/-!
# The statements of the vault

Each statement first puts its values into the form of the store: integers must fit 64 bits, and text must
have an encoded form. Only then is it executed.
-/

namespace Strongbox.Store

def bindInt (n : Int) : Except Fault Unit :=
  if -0x8000000000000000 ≤ n ∧ n < 0x8000000000000000 then .ok () else .error .overflow

def bindText (t : Text) : Except Fault Unit :=
  if t.Encodable then .ok () else .error .unencodable

def bindTexts (ts : List Text) : Except Fault Unit :=
  if ∀ t ∈ ts, t.Encodable then .ok () else .error .unencodable

def reading (bind : Except Fault Unit) (read : Tables → β) : Statement β :=
  { writes := false, run := fun t => bind.map fun () => (read t, t) }

def writing (bind : Except Fault Unit) (write : Tables → β × Tables) : Statement β :=
  { writes := true, run := fun t => bind.map fun () => write t }

def forObjects (s : Statement β) : Statement β := { s with yields := false }

def selectTaken (owner : Int) (ids : List Text) : Statement (Option Text) :=
  reading (do bindInt owner; bindTexts ids) fun t => t.taken? owner ids

def insertRecords (owner now : Int) (items : List NewRecord) : Statement (Option (List Record)) :=
  forObjects <|
    writing (do bindInt owner; bindTexts (items.flatMap fun i => [i.recordId, i.payload, i.hash])) fun t =>
      match t.insertRecords? owner now items with
      | some (rows, t) => (some rows, t)
      | none => (none, t)

def bindContents : Option (Text × Text) → Except Fault Unit
  | some (payload, hash) => do bindText payload; bindText hash
  | none => .ok ()

def amendRecord (owner now : Int) (item : Amendment) (version : Int) : Statement Nat :=
  writing (do
    bindContents item.contents
    bindInt owner
    bindText item.recordId
    bindInt version) fun t => t.amend owner now item version

def selectRecord (owner : Int) (recordId : Text) : Statement (Option Record) :=
  reading (do bindInt owner; bindText recordId) fun t => t.find? owner recordId

section Rows

variable (rows : Tables → Int → List Record)

def selectRows (owner : Int) : Statement (List Record) :=
  reading (bindInt owner) fun t => rows t owner

def selectAmong (owner : Int) (ids : List Text) : Statement (List Record) :=
  reading (do bindInt owner; bindTexts ids) fun t =>
    (rows t owner).filter fun r => ids.contains r.recordId

end Rows

def selectLogin (login : Text) : Statement (Option User) :=
  reading (bindText login) fun t => t.userOfLogin? login

def selectUser (id : Int) : Statement (Option User) :=
  forObjects <| reading (bindInt id) fun t => t.userOfId? id

def insertUser (login passwordHash salt : Text) : Statement (Option User) :=
  forObjects <| writing (do bindText login; bindText passwordHash; bindText salt) fun t =>
    match t.insertUser? login passwordHash salt with
    | some (user, t) => (some user, t)
    | none => (none, t)

end Strongbox.Store
