import Strongbox.Http.Response

/-!
# The layer that inflates bodies

The layer stands between a connection and an application. It takes in a compressed body as far as it goes, and hands
the application a copy of the scope and a way to receive that begins with the contents. Messages need not have all of
their fields, and scopes are shared, so they are known by their places.
-/

namespace Strongbox.Http

/-- A message as it comes over a connection, where fields may be missing. -/
structure Packet where
  kind : Text
  body : Option Bytes := none
  more : Option Bool := none
  deriving DecidableEq, Repr

namespace Packet

def disconnect : Packet := { kind := Text.ofString "http.disconnect" }

def whole (body : Bytes) : Packet := ⟨Text.ofString "http.request", some body, some false⟩

def ofMessage : Message → Packet
  | .body bytes more => ⟨Text.ofString "http.request", some bytes, some more⟩
  | .disconnect => disconnect

end Packet

structure Scope where
  kind : Text
  headers : Option Headers := none
  deriving DecidableEq, Repr

structure World where
  scopes : List Scope
  incoming : List Packet
  replayed : List Bool := []
  sent : List Response := []
  deriving DecidableEq, Repr

abbrev Action := ExceptT Fault (StateM World)

/-- What is served at a connection, given the place of its scope and a way to receive. -/
abbrev Application (α : Type) := (scope : Nat) → (receive : Action Packet) → Action α

namespace World

def look (scope : Nat) : Action Scope := fun w =>
  match w.scopes[scope]? with
  | some s => (.ok s, w)
  | none => (.error .unavailable, w)

def copied (scope : Nat) : Action Nat := do
  let given ← look scope
  fun w => (.ok w.scopes.length, { w with scopes := w.scopes ++ [given] })

def setHeaders (scope : Nat) (headers : Headers) : Action Unit := fun w =>
  (.ok (), { w with scopes := w.scopes.modify scope fun s => { s with headers := some headers } })

def receive : Action Packet := fun w =>
  match w.incoming with
  | [] => (.ok .disconnect, w)
  | p :: rest => (.ok p, { w with incoming := rest })

def newReplay : Action Nat := fun w => (.ok w.replayed.length, { w with replayed := w.replayed ++ [false] })

/-- Hands out the body once, and then what comes over the connection. -/
def replay (note : Nat) (body : Bytes) : Action Packet := fun w =>
  if w.replayed[note]? = some false then
    (.ok (.whole body), { w with replayed := w.replayed.set note true })
  else receive w

def answer (status : Int) (reason : String) : Action Unit := fun w =>
  match Response.plain status [] (Text.ofString reason) with
  | .ok r => (.ok (), { w with sent := w.sent ++ [r] })
  | .error f => (.error f, w)

/-- The chunks of a body after those that have come already, and the messages after them. Without an end of the body
there are only the messages after the connection was gone. -/
def gatherFrom : (chunks : List Bytes) → List Packet → Option (List Bytes) × List Packet
  | _, [] => (none, [])
  | chunks, p :: rest =>
    if p.kind = Text.ofString "http.disconnect" then (none, rest)
    else if p.more.getD false then gatherFrom (chunks ++ [p.body.getD []]) rest
    else (some (chunks ++ [p.body.getD []]), rest)

def gather : Action (Option (List Bytes)) := fun w =>
  let (chunks?, rest) := gatherFrom [] w.incoming
  (.ok chunks?, { w with incoming := rest })

def unpacking (maxSize : Int) (app : Application α) (scope : Nat) (headers : Headers) (chunks : List Bytes) :
    Action (Option α) :=
  match Gzip.inflate maxSize chunks.flatten with
  | .error .negativeLimit => throw .badValue
  | .error .hugeLimit => throw .overflow
  | .error .corrupt => do
    answer 400 "invalid gzip body"
    pure none
  | .ok none => do
    answer 413 "request body too large"
    pure none
  | .ok (some body) => do
    let copy ← copied scope
    setHeaders copy (replacedHeaders body.length headers)
    let note ← newReplay
    some <$> app copy (replay note body)

/-- Serves a connection, with the contents of its body if that is compressed. Nothing comes of it if the application is
not reached. -/
def inflating (maxSize : Int) (app : Application α) (scope : Nat) : Action (Option α) := do
  let given ← look scope
  let headers := given.headers.getD []
  if given.kind = Text.ofString "http" ∧ isCompressed headers then
    match ← gather with
    | none => pure none
    | some chunks => unpacking maxSize app scope headers chunks
  else some <$> app scope receive

end World

end Strongbox.Http
