import Strongbox.Http.Request

/-!
# Requests from other origins

A browser asks ahead of a request from another origin, and reads an answer only if its headers allow it.
-/

namespace Strongbox.Http.CrossOrigin

abbrev Origins := List Text

def isOpen (allowed : Origins) : Bool := allowed.contains (Text.ofString "*")

def allows (allowed : Origins) (origin : Text) : Bool := isOpen allowed || allowed.contains origin

def methods : List String := ["DELETE", "GET", "HEAD", "OPTIONS", "PATCH", "POST", "PUT", "QUERY"]

def questionHeaders : List String :=
  ["Origin", "Access-Control-Request-Method", "Access-Control-Request-Headers",
    "Access-Control-Request-Private-Network"]

def isQuestion (r : Request) : Bool :=
  r.method == Text.ofString "OPTIONS" && (header? "origin" r.headers).isSome &&
    (header? "access-control-request-method" r.headers).isSome

def listed (names : List String) : Text := Text.join (Text.ofString ", ") (names.map Text.ofString)

def refusals (allowed : Origins) (origin method : Text) (r : Request) : List String :=
  (if allows allowed origin then [] else ["origin"]) ++
    (if methods.any fun m => Text.ofString m == method then [] else ["method"]) ++
    (if (header? "access-control-request-private-network" r.headers).isSome then ["private-network"] else [])

def answer (allowed : Origins) (r : Request) : Response :=
  let origin := (header? "origin" r.headers).getD []
  let method := (header? "access-control-request-method" r.headers).getD []
  let refusals := refusals allowed origin method r
  let headers :=
    [("vary", some (listed questionHeaders)),
      ("access-control-allow-methods", some (listed methods)),
      ("access-control-max-age", some (Text.ofString "600")),
      ("access-control-allow-credentials", some (Text.ofString "true")),
      ("access-control-allow-origin", if allows allowed origin then some origin else none),
      ("access-control-allow-headers", header? "access-control-request-headers" r.headers),
      ("content-type", some Response.plainType)]
  ⟨if refusals.isEmpty then 200 else 400,
    headers.filterMap fun (name, value) => value.map fun v => (Text.ofString name, v),
    (if refusals.isEmpty then Text.ofString "OK"
      else Text.ofString "Disallowed CORS " ++ listed refusals).asciiBytes⟩

/-- The response with the headers for the origin of its request. An origin that is allowed is named even where
all are, because credentials are never for every origin; so the response depends on the origin. -/
def marked (allowed : Origins) (request : Request) (r : Response) : Response :=
  match header? "origin" request.headers with
  | none => r.varying "Origin"
  | some origin =>
    let r := (r.withHeader "access-control-allow-credentials" (Text.ofString "true")).withHeader
      "access-control-expose-headers" (Text.ofString "Authorization, X-Trace-Id")
    (if allows allowed origin then r.withHeader "access-control-allow-origin" origin else r).varying "Origin"

end Strongbox.Http.CrossOrigin
