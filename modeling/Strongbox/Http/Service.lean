import Strongbox.Http.Endpoint
import Strongbox.Http.Request
import Strongbox.Integrity.Gate
import Strongbox.Token.Access
import Strongbox.Vault.Call

/-!
# Serving an endpoint

A request passes the reading of its body, the token, the integrity gate and the shape of the body, in this
order, before its call runs in the store.
-/

namespace Strongbox.Http

structure Service where
  settings : Settings
  pool : Option HasherPool

/-- The circumstances of a request: the time in microseconds, random bytes for the hash of a password, and
a trace id for a request that has none. -/
structure Moment where
  now : Int
  random : Bytes
  freshTrace : Text
  deriving DecidableEq, Repr

inductive Task where
  | call (c : Vault.Call)
  | say (type t : Text)
  deriving DecidableEq, Repr

def demand (x : Outcome α) : Except Problem α := x.mapError Problem.ofFailure

namespace Service

def caller (s : Service) (now : Int) (r : Request) : Except Problem Int :=
  demand (Token.authenticate s.settings now (header? "authorization" r.headers))

def gate (s : Service) (e : Endpoint) (body : Bytes) : Except Problem Unit :=
  match e with
  | .upload => demand (Integrity.checkUpload s.pool body)
  | .update => demand (Integrity.checkUpdate s.pool body)
  | _ => .ok ()

def welcome (s : Settings) : Json :=
  Json.record [("message", .text (Text.ofString "Welcome to " ++ s.projectName ++ Text.ofString " API"))]

def task (s : Service) (random : Bytes) (user : Int) (content : Content) : Endpoint → Except Problem Task
  | .register => return .call (.register random (← content.read Registration.check))
  | .login => return .call (.login (← content.read Credentials.check))
  | .params => .ok (.call (.params user))
  | .upload => return .call (.upload user (← content.read Upload.check))
  | .download => return .call (.download user (← content.read Selection.check))
  | .downloadAll => .ok (.call (.downloadAll user))
  | .update => return .call (.update user (← content.read Update.check))
  | .delete => return .call (.delete user (← content.read Deletion.check))
  | .states => .ok (.call (.allStates user))
  | .specificStates => return .call (.specificStates user (← content.read Selection.check))
  | .compare => return .call (.compare user (← content.read (Comparison.check .value)))
  | .version => .ok (.say Response.plainType s.settings.projectVersion)
  | .welcome => .ok (.say Response.jsonType (welcome s.settings).toText)

/-- Checks a request as far as that is possible without the database. -/
def prepare (s : Service) (m : Moment) (e : Endpoint) (r : Request) : Except Problem Task := do
  let body ← if e.takesBody then r.body else pure []
  let content ← contentOf r.headers body
  let user ← if e.isGuarded then s.caller m.now r else pure 0
  s.gate e body
  s.task m.random user content e

/-- Registration and login answer for a failure of the store as a gateway does. -/
def credentialProblem (message : String) : Failure → Problem
  | .vault e => .vault (match e.kind with
    | .internal _ => .of .badGateway (Text.ofString message)
    | _ => e)
  | .fault f => .fault f

def problemOf (e : Endpoint) (f : Failure) : Problem :=
  match e with
  | .register => credentialProblem "registration failed" f
  | .login => credentialProblem "login failed" f
  | _ => .ofFailure f

def grant (s : Service) (now : Int) (e : Endpoint) (a : Account) : Except Problem Response := do
  let token ← demand (Token.issue s.settings now a.id)
  (Response.json e.status [(Text.ofString "authorization", Text.ofString "Bearer " ++ token)]
    (IssuedToken.toJson ⟨token, Text.ofString "bearer"⟩)).mapError .fault

def success (s : Service) (now : Int) (e : Endpoint) (a : Vault.Answer) : Except Problem Response :=
  let json (v : Json) : Except Problem Response := (Response.json e.status [] v).mapError .fault
  match a with
  | .records views => if e = .upload then .ok ⟨e.status, [], []⟩ else json (.array (views.map RecordView.toJson))
  | .states states => json (Listing.ofStates states).toJson
  | .plan p => json p.toJson
  | .account a => if e = .params then json (DerivationParams.toJson ⟨a.login, a.salt⟩) else s.grant now e a
  | .done => .ok ⟨e.status, [], []⟩

def run (s : Service) (now : Int) (e : Endpoint) (c : Vault.Call) (db : Database) :
    Except Problem Response × Database :=
  let ended := Store.runCall (ρ := Unit) Store.undisturbed s.settings.requestTimeoutSeconds ⟨db, none, false⟩
    (c.routine now)
  (match ended.result with
    | .ok a => s.success now e a
    | .error f => .error (problemOf e f), ended.database)

def serve (s : Service) (m : Moment) (e : Endpoint) (r : Request) (db : Database) :
    Except Problem Response × Database :=
  match s.prepare m e r with
  | .error p => (.error p, db)
  | .ok (.say type t) => ((Response.ofText type e.status [] t).mapError .fault, db)
  | .ok (.call c) => s.run m.now e c db

end Service

end Strongbox.Http
