import Strongbox.Http.Problem
import Strongbox.Schema.Checked
import Strongbox.Text.Blank

/-!
# Requests

The body of a request is a document if its media type says so. Whether the document can be read is found out
before anything else is asked about the request.
-/

namespace Strongbox.Http

structure Request where
  method : Text
  path : Text
  query : Text := []
  headers : Headers := []
  messages : List Message := [.body [] false]
  deriving DecidableEq, Repr

def lowerNames (headers : Headers) : Headers := headers.map fun (name, value) => (Text.lowerAscii name, value)

def isJsonType (value : Text) : Bool :=
  let type := (Text.strip ((Text.splitBy (· == 59) value).headD [])).lower
  match Text.splitBy (· == 47) type with
  | [main, sub] => main == Text.ofString "application" &&
      (sub == Text.ofString "json" || Text.startsWith sub.reverse (Text.ofString "nosj+"))
  | _ => false

inductive Content where
  | absent
  | document (v : Json)
  | raw
  deriving Repr

def unreadable : Problem := .refusal 400 (some (.text (Text.ofString "There was an error parsing the body"))) []

def contentOf (headers : Headers) (body : Bytes) : Except Problem Content :=
  if body.isEmpty then .ok .absent
  else if ((header? "content-type" headers).map isJsonType).getD false then
    match Json.parseLenient body with
    | .ok v => .ok (.document v)
    | .error .malformed => .error .invalidData
    | .error _ => .error unreadable
  else .ok .raw

namespace Request

def body (r : Request) : Except Problem Bytes :=
  match collect? r.messages with
  | some (bytes, _) => .ok bytes
  | none => .error unreadable

end Request

def Content.read (check : Json → Schema.Checked α) : Content → Except Problem α
  | document v =>
    match check v with
    | .ok x => .ok x
    | .error _ => .error .invalidData
  | _ => .error .invalidData

end Strongbox.Http
