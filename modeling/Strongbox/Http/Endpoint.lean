import Strongbox.Text.Basic

/-!
# Endpoints

Every endpoint has one method and one path. All but the welcome lie below a configurable path; the vault and
the state of its records are only for callers with a token.
-/

namespace Strongbox.Http

inductive Endpoint where
  | register
  | login
  | params
  | upload
  | download
  | downloadAll
  | update
  | delete
  | states
  | specificStates
  | compare
  | version
  | welcome
  deriving DecidableEq, Repr

namespace Endpoint

def all : List Endpoint :=
  [register, login, params, upload, download, downloadAll, update, delete, states, specificStates, compare,
    version, welcome]

def method : Endpoint → String
  | register => "POST"
  | login => "POST"
  | params => "GET"
  | upload => "POST"
  | download => "POST"
  | downloadAll => "GET"
  | update => "PUT"
  | delete => "DELETE"
  | states => "GET"
  | specificStates => "POST"
  | compare => "POST"
  | version => "GET"
  | welcome => "GET"

def path (base : Text) : Endpoint → Text
  | register => base ++ Text.ofString "/auth/register"
  | login => base ++ Text.ofString "/auth/login"
  | params => base ++ Text.ofString "/auth/params"
  | upload => base ++ Text.ofString "/data/"
  | download => base ++ Text.ofString "/data/download"
  | downloadAll => base ++ Text.ofString "/data/all"
  | update => base ++ Text.ofString "/data/update"
  | delete => base ++ Text.ofString "/data/delete"
  | states => base ++ Text.ofString "/sync/"
  | specificStates => base ++ Text.ofString "/sync/specific"
  | compare => base ++ Text.ofString "/sync/plan"
  | version => base ++ Text.ofString "/version/"
  | welcome => Text.ofString "/"

def isGuarded : Endpoint → Bool
  | register => false
  | login => false
  | version => false
  | welcome => false
  | _ => true

def takesBody (e : Endpoint) : Bool := e.method != "GET"

def status : Endpoint → Nat
  | register => 201
  | upload => 201
  | _ => 200

end Endpoint

end Strongbox.Http
