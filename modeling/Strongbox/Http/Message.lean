import Strongbox.Gzip.Member
import Strongbox.Failure

/-!
# Messages of a connection

A request's body comes in messages until one says that there is no more; then the connection is gone. A
compressed body is taken in whole and replaced by its contents.
-/

namespace Strongbox.Http

abbrev Headers := List (Text × Text)

inductive Message where
  | body (bytes : Bytes) (more : Bool)
  | disconnect
  deriving DecidableEq, Repr

/-- A body in pieces of `size` bytes, the last one perhaps shorter; in one piece if the size is zero. -/
def pieces (size : Nat) (body : Bytes) : List Bytes :=
  if size = 0 ∨ body.length ≤ size then [body] else body.take size :: pieces size (body.drop size)
termination_by body.length
decreasing_by simp only [List.length_drop]; omega

def messagesOf (pieces : List Bytes) : List Message :=
  pieces.zipIdx.map fun (bytes, i) => .body bytes (i + 1 < pieces.length)

/-- The next message; after the last one the connection is gone. -/
def receive : List Message → Message × List Message
  | [] => (.disconnect, [])
  | m :: rest => (m, rest)

def receiveMany : (n : Nat) → List Message → List Message
  | 0, _ => []
  | n + 1, messages =>
    let (m, rest) := receive messages
    m :: receiveMany n rest

/-- A whole body and the messages after it, or nothing when the connection is gone before its end. -/
def collect? : List Message → Option (Bytes × List Message)
  | [] => none
  | .disconnect :: _ => none
  | .body bytes more :: rest =>
    if more then (collect? rest).map fun (tail, rest) => (bytes ++ tail, rest) else some (bytes, rest)

def lastHeader? (name : String) (headers : Headers) : Option Text :=
  (headers.reverse.find? fun h => h.1 == Text.ofString name).map (·.2)

def header? (name : String) (headers : Headers) : Option Text :=
  (headers.find? fun h => h.1 == Text.ofString name).map (·.2)

def isCompressed (headers : Headers) : Bool :=
  ((lastHeader? "content-encoding" headers).map Text.lowerAscii) == some (Text.ofString "gzip")

def replacedHeaders (length : Nat) (headers : Headers) : Headers :=
  (headers.filter fun h =>
    h.1 ≠ Text.ofString "content-encoding" ∧ h.1 ≠ Text.ofString "content-length") ++
    [(Text.ofString "content-length", Text.ofNat length)]

inductive Inflation where
  | untouched
  /-- The connection is gone: nobody is served or answered. -/
  | abandoned
  | refused (status : Nat) (reason : String)
  | replaced (headers : Headers) (messages : List Message)
  | failed (f : Fault)
  deriving DecidableEq, Repr

def inflateBody (maxSize : Int) (headers : Headers) (messages : List Message) : Inflation :=
  if isCompressed headers then
    match collect? messages with
    | none => .abandoned
    | some (data, rest) =>
      match Gzip.inflate maxSize data with
      | .error .negativeLimit => .failed .badValue
      | .error .hugeLimit => .failed .overflow
      | .error .corrupt => .refused 400 "invalid gzip body"
      | .ok none => .refused 413 "request body too large"
      | .ok (some body) => .replaced (replacedHeaders body.length headers) (.body body false :: rest)
  else .untouched

end Strongbox.Http
