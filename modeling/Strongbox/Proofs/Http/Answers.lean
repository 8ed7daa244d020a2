import Strongbox.Proofs.Http.Layers
import Strongbox.Proofs.Json.RoundTrip

/-!
# Answers

A request that passes all layers to its endpoint, and whose call ends well, is answered with what the call came to.
The layers outside of the endpoint only set headers.
-/

namespace Strongbox.Http

/-- A response with this status whose body is the value, written down. -/
structure Response.Says (response : Response) (status : Int) (v : Json) : Prop where
  status : response.status = status
  body : Utf8.encode? v.toText = some response.body

theorem Response.json_printable (status : Int) {v : Json} (h : v.Printable) :
    ∃ response, Response.json status [] v = .ok response ∧ response.Says status v := by
  have ⟨body, encoded⟩ : ∃ body, Utf8.encode? v.toText = some body :=
    ⟨_, Utf8.encode?_eq_some.mpr ⟨Json.encodable_toText h, rfl⟩⟩
  have made : Response.json status [] v = .ok ⟨status, [(Text.ofString "content-type", jsonType)], body⟩ := by
    simp only [Response.json, Response.ofText, encoded]
    rfl
  exact ⟨_, made, rfl, encoded⟩

theorem Response.Says.withHeaders {response : Response} {status : Int} {v : Json} (h : response.Says status v)
    (headers : Headers) : ({ response with headers } : Response).Says status v := ⟨h.status, h.body⟩

theorem compressed_sets_headers (minimum : Int) (headers : Headers) (response : Response) :
    ∃ set, compressed minimum headers response = { response with headers := set } := by
  unfold compressed
  split
  · simp only
    split
    · exact ⟨_, rfl⟩
    · exact ⟨_, rfl⟩
  · exact ⟨_, rfl⟩

theorem CrossOrigin.marked_sets_headers (origins : Origins) (r : Request) (response : Response) :
    ∃ set, marked origins r response = { response with headers := set } := by
  unfold marked
  split
  · exact ⟨_, rfl⟩
  · simp only
    split
    · exact ⟨_, rfl⟩
    · exact ⟨_, rfl⟩

/-- An endpoint is served with its method only. -/
theorem Route.find_served {base : Template} {method path : Text} {e : Endpoint}
    (h : find base method path = .served e) : method = Text.ofString e.method := by
  unfold find at h
  split at h
  · cases h
  · split at h
    · rename_i e' found
      cases h
      have fits := List.find?_some found
      rw [Bool.and_eq_true, beq_iff_eq] at fits
      exact fits.1.symm
    · cases h
  · split at h <;> cases h

theorem CrossOrigin.isQuestion_served {base : Template} {r : Request} {e : Endpoint}
    (h : Route.find base r.method r.path = .served e) : isQuestion r = false := by
  have other : (Text.ofString e.method == Text.ofString "OPTIONS") = false := by cases e <;> rfl
  rw [isQuestion, Route.find_served h, other]
  rfl

section Leaving

variable {app : App} {m : Moment} {r received : Request} {e : Endpoint} {response : Response} {db : Database}
  (hroute : Route.find app.base r.method r.path = .served e) (hreceived : app.received? r = some received)
include hroute hreceived

/-- What the route of an endpoint answers leaves the application with other headers at most. -/
theorem App.handle_routed (hrouted : app.routed m received = (.ok response, db)) :
    ∃ set, app.handle m r = ({ response with headers := set }, { app with database := db }) := by
  obtain ⟨inner, hinner⟩ := compressed_sets_headers app.settings.gzipMinimumSize received.headers response
  have traced : app.traced m r =
      (.ok ({ response with headers := inner }.withHeader "x-trace-id" (traceId m r)), db) := by
    rw [App.traced, unpacked_of_received hreceived, App.inflated, hrouted]
    simp only [Except.map, hinner]
  by_cases off : app.settings.allowedOrigins.isEmpty = true
  · refine ⟨setHeader "x-trace-id" (traceId m r) inner, ?_⟩
    simp only [App.handle, App.shared, off, if_true, traced]
    rfl
  · obtain ⟨outer, houter⟩ := CrossOrigin.marked_sets_headers app.settings.allowedOrigins r
      ({ response with headers := inner }.withHeader "x-trace-id" (traceId m r))
    refine ⟨outer, ?_⟩
    simp only [App.handle, App.shared, off, CrossOrigin.isQuestion_served hroute, traced, Except.map, houter]
    rfl

/-- A fault of the route crashes, and is answered outside of all layers. -/
theorem App.handle_crashed {f : Fault} (hrouted : app.routed m received = (.error f, db)) :
    app.handle m r = (Problem.crash, { app with database := db }) := by
  have traced : app.traced m r = (.error f, db) := by
    rw [App.traced, unpacked_of_received hreceived, App.inflated, hrouted]
    rfl
  by_cases off : app.settings.allowedOrigins.isEmpty = true
  · simp only [App.handle, App.shared, off, if_true, traced]
  · simp only [App.handle, App.shared, off, CrossOrigin.isQuestion_served hroute, traced]
    rfl

theorem App.handle_served (hserve : app.service.serve m e received app.database = (.ok response, db)) :
    ∃ set, app.handle m r = ({ response with headers := set }, { app with database := db }) := by
  apply handle_routed hroute hreceived
  exact routed_ok ((received?_route hreceived).trans hroute) hserve

theorem App.handle_refused {p : Problem} (hserve : app.service.serve m e received app.database = (.error p, db))
    (hrespond : p.respond = .ok response) :
    ∃ set, app.handle m r = ({ response with headers := set }, { app with database := db }) := by
  apply handle_routed hroute hreceived
  rw [← hrespond]
  exact routed_error ((received?_route hreceived).trans hroute) hserve

end Leaving

namespace Service

variable {s : Service} {m : Moment} {e : Endpoint} {r : Request} {db : Database}

/-- A call that ends well when it is alone does so here, if it is given time. -/
theorem serve_alone (timed : s.settings.requestTimeoutSeconds.isPositive = true) {call : Vault.Call}
    {answer : Vault.Answer} {left : Store.Session} (hp : s.prepare m e r = .ok (.call call))
    (hx : (call.routine m.now).eval ⟨db, none, false⟩ = .ok (answer, left)) :
    s.serve m e r db = (s.success m.now e answer, left.committed) := by
  obtain ⟨result, database⟩ := Store.runCall_of_eval (ρ := Unit) Store.undisturbed_alone timed (fun _ => rfl)
    (fun _ => rfl) hx
  simp only [serve, hp, run, result, database]

theorem serve_answered (timed : s.settings.requestTimeoutSeconds.isPositive = true) {call : Vault.Call}
    {answer : Vault.Answer} {left : Store.Session} {response : Response} (hp : s.prepare m e r = .ok (.call call))
    (hx : (call.routine m.now).eval ⟨db, none, false⟩ = .ok (answer, left))
    (hsuccess : s.success m.now e answer = .ok response) : s.serve m e r db = (.ok response, left.committed) := by
  rw [serve_alone timed hp hx, hsuccess]

/-- Without any time every call is cancelled before it starts. -/
theorem serve_untimed (untimed : s.settings.requestTimeoutSeconds.isPositive = false) {call : Vault.Call}
    (hp : s.prepare m e r = .ok (.call call)) : s.serve m e r db = (.error (problemOf e Store.cancelled), db) := by
  simp only [serve, hp, run, Store.runCall, untimed, Bool.false_eq_true, if_false]

end Service

/-- A body of the right type that is read is a document. -/
theorem contentOf_of_parse {headers : Headers} {body : Bytes} {v : Json}
    (type : (header? "content-type" headers).map isJsonType = some true) (h : Json.parseLenient body = .ok v) :
    contentOf headers body = .ok (.document v) := by
  have filled : body.isEmpty = false := by
    cases body with
    | nil => cases h
    | cons b rest => rfl
  simp only [contentOf, filled, type, h]
  rfl

end Strongbox.Http
