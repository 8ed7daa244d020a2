import Strongbox.Encoding.Percent
import Strongbox.Http.Endpoint
import Strongbox.Http.Request
import Strongbox.Http.Template

/-!
# Routing

A path that is known but not with the method of the request is answered as if it were unknown. A request to
a path that would be known with one slash more at its end, or with fewer, is sent there.

The pages that describe the interface, and the document that they show, are known paths; but their contents are not
part of this library, and a request to read them is answered as if they were unknown, too.
-/

namespace Strongbox.Http

def routeTable (base : Text) : List (Text × Text) :=
  (Endpoint.all.map fun e => (Text.ofString e.method, e.path base)).mergeSort fun a b =>
    a.1.before b.1 || (a.1 == b.1 && !b.2.before a.2)

def descriptionPath (base : Text) : Text := base ++ Text.ofString "/openapi.json"

def Endpoint.template (base : Template) : Endpoint → Template
  | .welcome => [.text (path [] .welcome)]
  | e => base ++ [.text (e.path [])]

def descriptionTemplates (base : Template) : List Template :=
  (base ++ [.text (descriptionPath [])]) ::
    ["/docs", "/docs/oauth2-redirect", "/redoc"].map fun path => [.text (Text.ofString path)]

def knownTemplates (base : Template) : List Template :=
  Endpoint.all.map (Endpoint.template base) ++ descriptionTemplates base

def fitOf (base : Template) (path : Text) : Template.Fit :=
  (((knownTemplates base).map fun template => template.fit path).find? (· != .apart)).getD .apart

inductive Route where
  | served (e : Endpoint)
  | moved (path : Text)
  | unknown
  | failed
  deriving DecidableEq, Repr

namespace Route

/-- The path without the slashes at its end; or with one, if there is none. -/
def otherSpelling (path : Text) : Text :=
  if path.getLast? = some 47 then (path.reverse.dropWhile (· == 47)).reverse else path ++ [47]

def find (base : Template) (method path : Text) : Route :=
  match fitOf base path with
  | .unreadable => failed
  | .fits =>
    match Endpoint.all.find? fun e =>
        Text.ofString e.method == method && (e.template base).fit path == .fits with
    | some e => served e
    | none => unknown
  | .apart =>
    match fitOf base (otherSpelling path) with
    | .unreadable => failed
    | .fits => moved (otherSpelling path)
    | .apart => unknown

end Route

def pathMarks : Text := Text.ofString "/:@!$&'()*+,;="

def addressMarks : Text := Text.ofString ":/%#?=@[]!$&'()*+,;"

def Request.addressOf (r : Request) (path : Text) : Text :=
  Percent.encode addressMarks (Text.ofString "http://" ++ (header? "host" r.headers).getD [] ++
    Percent.encode pathMarks path ++ (if r.query.isEmpty then [] else 63 :: r.query))

def Request.redirect (r : Request) (path : Text) : Response :=
  ⟨307, [(Text.ofString "location", r.addressOf path)], []⟩

end Strongbox.Http
