import Strongbox.Store.Tables

/-!
# The database

Its tables are there or not. Creating them keeps what is there.
-/

namespace Strongbox

abbrev Database := Option Tables

namespace Database

def create (db : Database) : Database := some (db.getD {})

def recreate (_ : Database) : Database := some {}

def asksToDrop (arguments : List String) : Bool := arguments.contains "--drop"

def setUp (arguments : List String) (db : Database) : Database :=
  if asksToDrop arguments then db.recreate else db.create

def seed (users : List (Text × Text × Text)) (t : Tables) : Tables :=
  users.foldl (fun t (login, hash, salt) =>
    match t.insertUser? login hash salt with
    | some (_, t) => t
    | none => t) t

structure Column where
  name : String
  nullable : Bool
  deriving DecidableEq, Repr

def columns : List (String × List Column) :=
  [("users", [⟨"id", false⟩, ⟨"login", false⟩, ⟨"password_hash", false⟩, ⟨"encryption_salt", false⟩,
      ⟨"created_at", true⟩]),
    ("records", [⟨"server_id", false⟩, ⟨"user_id", false⟩, ⟨"client_side_id", false⟩, ⟨"payload", false⟩,
      ⟨"hash", false⟩, ⟨"version", false⟩, ⟨"deleted", false⟩, ⟨"created_at", false⟩,
      ⟨"updated_at", false⟩])]

def rowCounts (t : Tables) : List Nat := [t.users.length, t.records.length]

end Database

end Strongbox
