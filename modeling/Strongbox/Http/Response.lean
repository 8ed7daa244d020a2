import Strongbox.Failure
import Strongbox.Http.Message
import Strongbox.Json.Printer
import Strongbox.Text.Utf8

/-!
# Responses

A response has a status, headers in the order in which they were set, and a body of bytes.
-/

namespace Strongbox.Http

structure Response where
  status : Int
  headers : Headers := []
  body : Bytes := []
  deriving DecidableEq, Repr

/-- Sets a header: the first one of the name is replaced, any others are dropped. -/
def setHeader (name : String) (value : Text) : Headers → Headers
  | [] => [(Text.ofString name, value)]
  | (n, v) :: rest =>
    if n = Text.ofString name then (n, value) :: rest.filter fun h => h.1 ≠ Text.ofString name
    else (n, v) :: setHeader name value rest

def addVary (name : String) (headers : Headers) : Headers :=
  match header? "vary" headers with
  | none => setHeader "vary" (Text.ofString name) headers
  | some already =>
    let named := (Text.splitBy (· == 44) already).map fun part => Text.lowerAscii (Text.strip part)
    if named.contains (Text.lowerAscii (Text.ofString name)) then headers
    else setHeader "vary" (already ++ Text.ofString ", " ++ Text.ofString name) headers

namespace Response

def withHeader (name : String) (value : Text) (r : Response) : Response :=
  { r with headers := setHeader name value r.headers }

def varying (name : String) (r : Response) : Response := { r with headers := addVary name r.headers }

def plainType : Text := Text.ofString "text/plain; charset=utf-8"

def jsonType : Text := Text.ofString "application/json"

/-- A response with a body of a given type, unless the headers give another. Text with surrogates has no
encoded form, and headers hold only code points below 256. -/
def ofText (type : Text) (status : Int) (headers : Headers) (t : Text) : Except Fault Response :=
  match Utf8.encode? t with
  | none => .error .unencodable
  | some body =>
    let headers := headers.map fun (name, value) => (name.lower, value)
    if headers.any fun (name, value) => (name ++ value).any (· ≥ 256) then .error .unencodable
    else .ok ⟨status, if (header? "content-type" headers).isSome then headers
        else headers ++ [(Text.ofString "content-type", type)], body⟩

def plain (status : Int) (headers : Headers) (t : Text) : Except Fault Response :=
  ofText plainType status headers t

def json (status : Int) (headers : Headers) (v : Json) : Except Fault Response :=
  ofText jsonType status headers v.toText

end Response

end Strongbox.Http
