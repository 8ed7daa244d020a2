import Strongbox.Http.Response
import Strongbox.Http.Status
import Strongbox.Json.Shown

/-!
# Problems and their responses

Everything that can keep a request from being served has a response in plain text, whose status says what
kind of problem it is. Failures of the server itself do not tell which record they are about.
-/

namespace Strongbox.Http

inductive Problem where
  | vault (e : VaultError)
  | invalidData
  /-- An error with a status of its own; without detail, the phrase of the status says what it is. -/
  | refusal (status : Int) (detail : Option Json) (headers : Headers)
  | fault (f : Fault)
  deriving Repr

namespace Problem

def ofFailure : Failure → Problem
  | .vault e => .vault e
  | .fault f => .fault f

def clientText (e : VaultError) : Text := if e.kind.status ≥ 500 then e.message else e.text

/-- The headers of the response to an error of the vault: who is not recognised is told how to be. -/
def vaultHeaders (e : VaultError) : Headers :=
  match e.kind with
  | .authentication _ => [(Text.ofString "www-authenticate", Text.ofString "Bearer")]
  | _ => []

def crash : Response :=
  ⟨500, [(Text.ofString "content-type", Response.plainType)],
    (Text.ofString "internal server error").asciiBytes⟩

/-- Nothing is served here. Which methods a path has is not told. -/
def notFound : Except Fault Response := Response.plain 404 [] (Text.ofString "Not Found")

def respond : Problem → Except Fault Response
  | vault e => Response.plain e.kind.status (vaultHeaders e) (clientText e)
  | invalidData => Response.plain 400 [] (Text.ofString "invalid data provided")
  | refusal status detail headers =>
    if status = 405 then notFound
    else match detail with
      | some v => Response.plain status headers v.shown
      | none => Response.plain status headers (Text.ofString (phraseOf status))
  | fault f => .error f

end Problem

end Strongbox.Http
