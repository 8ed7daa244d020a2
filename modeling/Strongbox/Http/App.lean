import Strongbox.Http.Compression
import Strongbox.Http.CrossOrigin
import Strongbox.Http.Routing
import Strongbox.Http.Service
import Strongbox.Log
import Strongbox.Settings.Engine

/-!
# The application

From the inside outwards: the route, the compression of the response, the inflation of the request's body,
the trace id, the headers for other origins, and the answer to a crash. A crash is answered outside of all
other layers.
-/

namespace Strongbox.Http

structure App where
  service : Service
  base : Template
  database : Database

inductive BaseError where
  | unrooted
  | template (e : TemplateError)
  | slashAtEnd
  | takenName
  deriving DecidableEq, Repr

inductive StartError where
  | unknownLogLevel
  | base (e : BaseError)
  | database (e : Engine.BuildError)
  | hashers (f : Failure)
  deriving DecidableEq, Repr

namespace App

def baseOf (base : Text) : Except BaseError Template :=
  if base.isEmpty || base.head? = some 47 then (Template.ofText base).mapError .template
  else .error .unrooted

def takenNames : List String := ["authorization", "body", "user_in"]

def conflict? (base : Text) (template : Template) : Option BaseError :=
  if base.getLast? = some 47 then some .slashAtEnd
  else if takenNames.any fun name => template.names.contains (Text.ofString name) then some .takenName
  else none

/-- The application for the settings, over a database whose tables are created if they are missing. -/
def start (s : Settings) (db : Database) : Except StartError App := do
  if (Log.threshold? s.logLevel).isNone then .error .unknownLogLevel
  let base ← (baseOf s.apiPrefix).mapError .base
  let _ ← (Engine.ofSettings s).mapError .database
  let pool ← (HasherPool.ofKey s.integrityHashKey s.hasherPoolSize).mapError .hashers
  match conflict? s.apiPrefix base with
  | some e => .error (.base e)
  | none => .ok ⟨⟨s, some pool⟩, base, db.create⟩

def settings (app : App) : Settings := app.service.settings

def routed (app : App) (m : Moment) (r : Request) : Except Fault Response × Database :=
  match Route.find app.base r.method r.path with
  | .moved path => (.ok (r.redirect path), app.database)
  | .unknown => (Problem.notFound, app.database)
  | .failed => (.error .badValue, app.database)
  | .served e =>
    let (result, db) := app.service.serve m e r app.database
    (match result with
      | .ok response => .ok response
      | .error p => p.respond, db)

def inflated (app : App) (m : Moment) (r : Request) : Except Fault Response × Database :=
  let (result, db) := app.routed m r
  (result.map (compressed app.settings.gzipMinimumSize r.headers), db)

def unpacked (app : App) (m : Moment) (r : Request) : Except Fault Response × Database :=
  match inflateBody app.settings.maxInflatedBodySize r.headers r.messages with
  | .untouched => app.inflated m r
  | .replaced headers messages => app.inflated m { r with headers, messages }
  | .refused status reason => (Response.plain status [] (Text.ofString reason), app.database)
  | .abandoned => (.error .unavailable, app.database)
  | .failed f => (.error f, app.database)

def traceId (m : Moment) (r : Request) : Text :=
  match header? "x-trace-id" r.headers with
  | some (c :: id) => c :: id
  | _ => m.freshTrace

def traced (app : App) (m : Moment) (r : Request) : Except Fault Response × Database :=
  let (result, db) := app.unpacked m r
  (result.map (Response.withHeader "x-trace-id" (traceId m r)), db)

def shared (app : App) (m : Moment) (r : Request) : Except Fault Response × Database :=
  let origins := app.settings.allowedOrigins
  if origins.isEmpty then app.traced m r
  else if CrossOrigin.isQuestion r then (.ok (CrossOrigin.answer origins r), app.database)
  else
    let (result, db) := app.traced m r
    (result.map (CrossOrigin.marked origins r), db)

def handle (app : App) (m : Moment) (r : Request) : Response × App :=
  let (result, database) := app.shared m r
  (match result with
    | .ok response => response
    | .error _ => Problem.crash, { app with database })

end App

end Strongbox.Http
