import Strongbox.Schema.Body

/-!
# Users and records

The two tables of the vault. Rows stay in the order of their numbers, because a new row gets the number
after the largest one.
-/

namespace Strongbox

structure User where
  id : Int
  login : Text
  passwordHash : Text
  salt : Text
  deriving DecidableEq, Repr

/-- A record with its owner. Times are microseconds since the start of 1970. -/
structure Record where
  serverId : Int
  userId : Int
  recordId : Text
  payload : Text
  hash : Text
  version : Int
  deleted : Bool
  createdAt : Int
  updatedAt : Int
  deriving DecidableEq, Repr

structure Account where
  id : Int
  login : Text
  salt : Text
  deriving DecidableEq, Repr

def User.account (u : User) : Account := ⟨u.id, u.login, u.salt⟩

namespace Record

def view (offset : Option Int) (r : Record) : RecordView :=
  { serverId := r.serverId, userId := r.userId, recordId := r.recordId, payload := r.payload
    hash := r.hash, version := r.version, deleted := r.deleted
    createdAt := ⟨r.createdAt, offset⟩, updatedAt := ⟨r.updatedAt, offset⟩ }

def descriptor (r : Record) : Descriptor :=
  { recordId := r.recordId, hash := r.hash, version := r.version, deleted := r.deleted
    updatedAt := some ⟨r.updatedAt, none⟩ }

def isOf (owner : Int) (recordId : Text) (r : Record) : Bool :=
  r.userId == owner && r.recordId == recordId

def fresh (serverId owner now : Int) (item : NewRecord) : Record :=
  { serverId, userId := owner, recordId := item.recordId, payload := item.payload, hash := item.hash
    version := 0, deleted := false, createdAt := now, updatedAt := now }

end Record

structure Amendment where
  recordId : Text
  /-- The new payload and hash; a record that gets none becomes a tombstone. -/
  contents : Option (Text × Text)
  version : Option Int
  deriving DecidableEq, Repr

def Revision.amendment (item : Revision) : Amendment := ⟨item.recordId, some (item.payload, item.hash), item.version⟩

def Removal.amendment (item : Removal) : Amendment := ⟨item.recordId, none, item.version⟩

def Amendment.apply (item : Amendment) (now : Int) (r : Record) : Record :=
  match item.contents with
  | some (payload, hash) => { r with payload, hash, version := r.version + 1, updatedAt := now }
  | none => { r with deleted := true, version := r.version + 1, updatedAt := now }

structure Tables where
  users : List User := []
  records : List Record := []
  deriving DecidableEq, Repr

namespace Tables

def nextId (ids : List Int) : Int := ids.foldl max 0 + 1

def find? (t : Tables) (owner : Int) (recordId : Text) : Option Record :=
  t.records.find? (Record.isOf owner recordId)

def ofOwner (t : Tables) (owner : Int) : List Record := t.records.filter (·.userId == owner)

def liveOf (t : Tables) (owner : Int) : List Record := (t.ofOwner owner).filter (!·.deleted)

/-- The smallest of the given ids that the owner has a record of, tombstones included. -/
def taken? (t : Tables) (owner : Int) (ids : List Text) : Option Text :=
  ((t.ofOwner owner).map (·.recordId)).filter ids.contains |>.foldl (fun least id =>
    match least with
    | none => some id
    | some l => if Text.before id l then some id else some l) none

def rowsFor (owner now : Int) : (serverId : Int) → List NewRecord → List Record
  | _, [] => []
  | serverId, item :: rest =>
    .fresh serverId owner now item :: rowsFor owner now (serverId + 1) rest

/-- Adds records; nothing, if the owner has a record of one of their ids. -/
def insertRecords? (t : Tables) (owner now : Int) (items : List NewRecord) :
    Option (List Record × Tables) :=
  if items.any fun item => (t.find? owner item.recordId).isSome then none
  else
    let rows := rowsFor owner now (nextId (t.records.map (·.serverId))) items
    some (rows, { t with records := t.records ++ rows })

def writable (owner : Int) (recordId : Text) (version : Int) (r : Record) : Bool :=
  r.isOf owner recordId && r.version == version && !r.deleted

def change (t : Tables) (test : Record → Bool) (f : Record → Record) : Nat × Tables :=
  (t.records.countP test, { t with records := t.records.map fun r => if test r then f r else r })

def amend (t : Tables) (owner now : Int) (item : Amendment) (version : Int) : Nat × Tables :=
  t.change (writable owner item.recordId version) (item.apply now)

def userOfLogin? (t : Tables) (login : Text) : Option User := t.users.find? (·.login == login)

def userOfId? (t : Tables) (id : Int) : Option User := t.users.find? (·.id == id)

def insertUser? (t : Tables) (login passwordHash salt : Text) : Option (User × Tables) :=
  if (t.userOfLogin? login).isSome then none
  else
    let user := ⟨nextId (t.users.map (·.id)), login, passwordHash, salt⟩
    some (user, { t with users := t.users ++ [user] })

end Tables

end Strongbox
