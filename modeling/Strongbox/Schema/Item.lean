import Strongbox.Schema.Coercion

/-!
# Items of a batch

What a client sends about one record, and the descriptor of a record's state. The order of the members in
the written form is fixed, because batches are authenticated in that form.
-/

namespace Strongbox

structure NewRecord where
  recordId : Text := []
  payload : Text := []
  hash : Text := []
  deriving DecidableEq, Repr

structure Revision where
  recordId : Text := []
  payload : Text := []
  hash : Text := []
  version : Option Int := none
  deriving DecidableEq, Repr

structure Removal where
  recordId : Text := []
  version : Option Int := none
  deriving DecidableEq, Repr

structure Descriptor where
  recordId : Text
  hash : Text
  version : Int
  deleted : Bool := false
  updatedAt : Option Timestamp := none
  deriving DecidableEq, Repr

structure RecordView where
  serverId : Int
  userId : Int
  recordId : Text
  payload : Text
  hash : Text
  version : Int
  deleted : Bool
  createdAt : Timestamp
  updatedAt : Timestamp
  deriving DecidableEq, Repr

namespace Json

def record (members : List (String × Json)) : Json :=
  .object (members.map fun (name, v) => (Text.ofString name, v))

def ofOption (f : α → Json) : Option α → Json
  | none => .null
  | some x => f x

def ofTime (t : Timestamp) : Json := .text t.toText

end Json

open Schema Checked

namespace NewRecord

def check : Json → Checked NewRecord := model fun m =>
  ap (ap (Except.map NewRecord.mk (field "client_side_id" [] text m))
    (field "payload" [] text m)) (field "hash" [] text m)

def toJson (r : NewRecord) : Json :=
  Json.record [("client_side_id", .text r.recordId), ("payload", .text r.payload), ("hash", .text r.hash)]

end NewRecord

namespace Revision

def check : Json → Checked Revision := model fun m =>
  ap (ap (ap (Except.map Revision.mk (field "client_side_id" [] text m))
    (field "payload" [] text m)) (field "hash" [] text m))
    (field "version" none (optional int) m)

def toJson (r : Revision) : Json :=
  Json.record [("client_side_id", .text r.recordId), ("payload", .text r.payload), ("hash", .text r.hash),
    ("version", Json.ofOption .int r.version)]

end Revision

namespace Removal

def check : Json → Checked Removal := model fun m =>
  ap (Except.map Removal.mk (field "client_side_id" [] text m)) (field "version" none (optional int) m)

def toJson (r : Removal) : Json :=
  Json.record [("client_side_id", .text r.recordId), ("version", Json.ofOption .int r.version)]

end Removal

namespace Descriptor

def check (origin : Origin) : Json → Checked Descriptor := modelOrAttributes origin fun m =>
  ap (ap (ap (ap (Except.map Descriptor.mk (required "client_side_id" text m))
    (required "hash" text m)) (required "version" int m))
    (field "deleted" false bool m)) (field "updated_at" none (optional (time origin)) m)

def toJson (d : Descriptor) : Json :=
  Json.record [("client_side_id", .text d.recordId), ("hash", .text d.hash), ("version", .int d.version),
    ("deleted", .bool d.deleted), ("updated_at", Json.ofOption Json.ofTime d.updatedAt)]

end Descriptor

namespace RecordView

def check (origin : Origin) : Json → Checked RecordView := modelOrAttributes origin fun m =>
  ap (ap (ap (ap (ap (ap (ap (ap (Except.map RecordView.mk (required "server_id" int m))
    (required "user_id" int m)) (required "client_side_id" text m)) (required "payload" text m))
    (required "hash" text m)) (required "version" int m)) (required "deleted" bool m))
    (required "created_at" (time origin) m)) (required "updated_at" (time origin) m)

def toJson (r : RecordView) : Json :=
  Json.record [("server_id", .int r.serverId), ("user_id", .int r.userId), ("client_side_id", .text r.recordId),
    ("payload", .text r.payload), ("hash", .text r.hash), ("version", .int r.version),
    ("deleted", .bool r.deleted), ("created_at", Json.ofTime r.createdAt),
    ("updated_at", Json.ofTime r.updatedAt)]

end RecordView

end Strongbox
