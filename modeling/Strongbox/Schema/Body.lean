import Strongbox.Schema.Item

/-!
# Bodies of requests and answers

Each body is checked from JSON and written as JSON with all of its members.
-/

namespace Strongbox

structure Upload where
  userId : Option Int := none
  items : List NewRecord := []
  length : Option Int := none
  hash : Text := []
  deriving DecidableEq, Repr

structure Update where
  userId : Option Int := none
  items : List Revision := []
  length : Option Int := none
  hash : Text := []
  deriving DecidableEq, Repr

structure Deletion where
  userId : Option Int := none
  entries : List Removal := []
  length : Option Int := none
  deriving DecidableEq, Repr

structure Selection where
  userId : Option Int := none
  recordIds : List Text := []
  length : Option Int := none
  deriving DecidableEq, Repr

structure Comparison where
  userId : Option Int := none
  states : List Descriptor := []
  deriving DecidableEq, Repr

structure Listing where
  states : List Descriptor
  length : Int
  deriving DecidableEq, Repr

structure Plan where
  download : List Descriptor := []
  upload : List Descriptor := []
  update : List Descriptor := []
  deleteClient : List Descriptor := []
  deleteServer : List Descriptor := []
  deriving DecidableEq, Repr

structure Registration where
  login : Text := []
  password : Text := []
  salt : Text := []
  deriving DecidableEq, Repr

structure Credentials where
  login : Text := []
  password : Text := []
  deriving DecidableEq, Repr

structure DerivationParams where
  login : Text
  salt : Text
  deriving DecidableEq, Repr

structure IssuedToken where
  token : Text
  scheme : Text := Text.ofString "bearer"
  deriving DecidableEq, Repr

structure Claims where
  subject : Option Text := none
  issuer : Option Text := none
  issuedAt : Option Int := none
  expiresAt : Option Int := none
  deriving DecidableEq, Repr

open Schema Checked

namespace Upload

def check : Json → Checked Upload := model fun m =>
  ap (ap (ap (Except.map Upload.mk (field "user_id" none (optional int) m))
    (field "payload_list" [] (list NewRecord.check) m)) (field "length" none (optional int) m))
    (field "hash" [] text m)

def toJson (b : Upload) : Json :=
  Json.record [("user_id", Json.ofOption .int b.userId), ("payload_list", .array (b.items.map NewRecord.toJson)),
    ("length", Json.ofOption .int b.length), ("hash", .text b.hash)]

end Upload

namespace Update

def check : Json → Checked Update := model fun m =>
  ap (ap (ap (Except.map Update.mk (field "user_id" none (optional int) m))
    (field "private_data_updates" [] (list Revision.check) m)) (field "length" none (optional int) m))
    (field "hash" [] text m)

def toJson (b : Update) : Json :=
  Json.record [("user_id", Json.ofOption .int b.userId),
    ("private_data_updates", .array (b.items.map Revision.toJson)),
    ("length", Json.ofOption .int b.length), ("hash", .text b.hash)]

end Update

namespace Deletion

def check : Json → Checked Deletion := model fun m =>
  ap (ap (Except.map Deletion.mk (field "user_id" none (optional int) m))
    (field "delete_entries" [] (list Removal.check) m)) (field "length" none (optional int) m)

def toJson (b : Deletion) : Json :=
  Json.record [("user_id", Json.ofOption .int b.userId), ("delete_entries", .array (b.entries.map Removal.toJson)),
    ("length", Json.ofOption .int b.length)]

end Deletion

namespace Selection

def check : Json → Checked Selection := model fun m =>
  ap (ap (Except.map Selection.mk (field "user_id" none (optional int) m))
    (field "client_side_ids" [] (list text) m)) (field "length" none (optional int) m)

def toJson (b : Selection) : Json :=
  Json.record [("user_id", Json.ofOption .int b.userId), ("client_side_ids", .array (b.recordIds.map .text)),
    ("length", Json.ofOption .int b.length)]

end Selection

namespace Comparison

def check (origin : Origin) : Json → Checked Comparison := model fun m =>
  ap (Except.map Comparison.mk (field "user_id" none (optional int) m))
    (field "states" [] (list (Descriptor.check origin)) m)

def toJson (b : Comparison) : Json :=
  Json.record [("user_id", Json.ofOption .int b.userId), ("states", .array (b.states.map Descriptor.toJson))]

end Comparison

namespace Listing

def ofStates (states : List Descriptor) : Listing := ⟨states, states.length⟩

def check (origin : Origin) : Json → Checked Listing := model fun m =>
  ap (Except.map Listing.mk (required "states" (list (Descriptor.check origin)) m))
    (required "length" int m)

def toJson (b : Listing) : Json :=
  Json.record [("states", .array (b.states.map Descriptor.toJson)), ("length", .int b.length)]

end Listing

namespace Plan

def check (origin : Origin) : Json → Checked Plan := model fun m =>
  let bucket (name : String) := field name [] (list (Descriptor.check origin)) m
  ap (ap (ap (ap (Except.map Plan.mk (bucket "download")) (bucket "upload")) (bucket "update"))
    (bucket "delete_client")) (bucket "delete_server")

def toJson (p : Plan) : Json :=
  let bucket (states : List Descriptor) : Json := .array (states.map Descriptor.toJson)
  Json.record [("download", bucket p.download), ("upload", bucket p.upload), ("update", bucket p.update),
    ("delete_client", bucket p.deleteClient), ("delete_server", bucket p.deleteServer)]

end Plan

namespace Registration

def check : Json → Checked Registration := model fun m =>
  ap (ap (Except.map Registration.mk (field "login" [] text m)) (field "master_password" [] text m))
    (field "encryption_salt" [] text m)

def toJson (b : Registration) : Json :=
  Json.record [("login", .text b.login), ("master_password", .text b.password), ("encryption_salt", .text b.salt)]

end Registration

namespace Credentials

def check : Json → Checked Credentials := model fun m =>
  ap (Except.map Credentials.mk (field "login" [] text m)) (field "master_password" [] text m)

def toJson (b : Credentials) : Json :=
  Json.record [("login", .text b.login), ("master_password", .text b.password)]

end Credentials

namespace DerivationParams

def check (origin : Origin) : Json → Checked DerivationParams := modelOrAttributes origin fun m =>
  ap (Except.map DerivationParams.mk (required "login" text m)) (required "encryption_salt" text m)

def toJson (b : DerivationParams) : Json :=
  Json.record [("login", .text b.login), ("encryption_salt", .text b.salt)]

end DerivationParams

namespace IssuedToken

def check : Json → Checked IssuedToken := model fun m =>
  ap (Except.map IssuedToken.mk (required "access_token" text m))
    (field "token_type" (Text.ofString "bearer") text m)

def toJson (b : IssuedToken) : Json :=
  Json.record [("access_token", .text b.token), ("token_type", .text b.scheme)]

end IssuedToken

namespace Claims

def check : Json → Checked Claims := model fun m =>
  ap (ap (ap (Except.map Claims.mk (field "sub" none (optional text) m))
    (field "iss" none (optional text) m)) (field "iat" none (optional int) m))
    (field "exp" none (optional int) m)

def toJson (c : Claims) : Json :=
  Json.record [("sub", Json.ofOption .text c.subject), ("iss", Json.ofOption .text c.issuer),
    ("iat", Json.ofOption .int c.issuedAt), ("exp", Json.ofOption .int c.expiresAt)]

end Claims

end Strongbox
