import Strongbox.Text.Basic

/-!
# Failures

The vault reports a closed set of error kinds, each with a message for the client and sometimes the record
that it is about. Everything else that can stop a call is a fault.
-/

namespace Strongbox

inductive Rejection where
  | missingHeader
  | malformedHeader
  | emptyToken
  | expiredToken
  | invalidToken
  | badCredentials
  deriving DecidableEq, Repr

namespace Rejection

def name : Rejection → String
  | missingHeader => "missing_header"
  | malformedHeader => "malformed_header"
  | emptyToken => "empty_token"
  | expiredToken => "expired_token"
  | invalidToken => "invalid_token"
  | badCredentials => "bad_credentials"

def message : Rejection → String
  | missingHeader => "empty `Authorization` header"
  | malformedHeader => "invalid `Authorization` header"
  | emptyToken => "empty token in `Authorization` header"
  | expiredToken => "token is expired"
  | invalidToken => "token is expired or invalid"
  | badCredentials => "invalid login/password"

def all : List Rejection :=
  [missingHeader, malformedHeader, emptyToken, expiredToken, invalidToken, badCredentials]

def ofName? (t : Text) : Option Rejection := all.find? fun r => Text.ofString r.name == t

end Rejection

inductive ErrorKind where
  | validation
  | integrity
  | authentication (reason : Rejection)
  | authorization
  | notFound
  | uniquenessConflict
  | versionConflict
  | cancelled
  | badGateway
  /-- The store failed; a retryable failure may go away when the request is repeated. -/
  | internal (retryable : Bool)
  | unspecified
  deriving DecidableEq, Repr

namespace ErrorKind

def name : ErrorKind → String
  | validation => "validation"
  | integrity => "integrity"
  | authentication _ => "authentication"
  | authorization => "authorization"
  | notFound => "not_found"
  | uniquenessConflict => "uniqueness_conflict"
  | versionConflict => "version_conflict"
  | cancelled => "cancelled"
  | badGateway => "bad_gateway"
  | internal _ => "internal"
  | unspecified => "internal"

def defaultMessage : ErrorKind → String
  | validation => "invalid data provided"
  | integrity => "integrity check failed"
  | authentication reason => reason.message
  | authorization => "access denied"
  | notFound => "data not found"
  | uniquenessConflict => "record already exists"
  | versionConflict => "version conflict, please sync"
  | cancelled => "request cancelled"
  | badGateway => "login failed"
  | internal _ => "internal server error"
  | unspecified => "internal server error"

def status : ErrorKind → Nat
  | validation => 400
  | integrity => 400
  | authentication _ => 401
  | authorization => 403
  | notFound => 404
  | uniquenessConflict => 409
  | versionConflict => 409
  | cancelled => 503
  | badGateway => 502
  | internal _ => 500
  | unspecified => 500

end ErrorKind

structure VaultError where
  kind : ErrorKind
  message : Text
  recordId : Option Text
  deriving DecidableEq, Repr

namespace VaultError

/-- An error with a message; the empty message stands for the default of the kind. -/
def of (kind : ErrorKind) (message : Text := []) (recordId : Option Text := none) : VaultError :=
  ⟨kind, if message.isEmpty then Text.ofString kind.defaultMessage else message, recordId⟩

def text (e : VaultError) : Text :=
  match e.recordId with
  | none => e.message
  | some id => e.message ++ Text.ofString " (client_side_id=" ++ id ++ Text.ofString ")"

def rejected (reason : Rejection) : VaultError := of (.authentication reason)

def invalid (message : String) : VaultError := of .validation (Text.ofString message)

end VaultError

/-- What stops a call without being an error of the vault. -/
inductive Fault where
  | unencodable
  | overflow
  | badValue
  | badType
  | unknownName
  | unsignable
  | badKey
  | longPassword
  | unknownHash
  | unavailable
  | system
  | badPadding
  | noSuchOperation
  | tooDeep
  deriving DecidableEq, Repr

inductive Failure where
  | vault (e : VaultError)
  | fault (f : Fault)
  deriving DecidableEq, Repr

abbrev Outcome (α : Type) := Except Failure α

namespace Outcome

def reject (e : VaultError) : Outcome α := .error (.vault e)

def fail (f : Fault) : Outcome α := .error (.fault f)

end Outcome

end Strongbox
