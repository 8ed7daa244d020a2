import Strongbox.Proofs.Http.Layers
import Strongbox.Proofs.Http.Routes

/-!
# Without a token

A request to an endpoint for callers with a token is refused before the database is looked at, whatever its
method and its body are, if its token is missing or not accepted. So the response is the same over every
database, and tells nothing about it.
-/

namespace Strongbox.Http

def Response.IsError (r : Response) : Prop := 400 ≤ r.status

instance (r : Response) : Decidable r.IsError := inferInstanceAs (Decidable (400 ≤ r.status))

/-- The response apart from the trace id in it. -/
def Response.untraced (r : Response) : Response :=
  { r with headers := r.headers.filter fun h => h.1 ≠ Text.ofString "x-trace-id" }

def Refuses (result : Except Fault Response) : Prop := ∀ response, result = .ok response → response.IsError

theorem refuses_fault (f : Fault) : Refuses (.error f) := nofun

theorem Refuses.map {result : Except Fault Response} (h : Refuses result) {f : Response → Response}
    (hf : ∀ response, (f response).status = response.status) : Refuses (result.map f) := by
  intro response hr
  obtain ⟨inner, hinner, rfl⟩ := map_eq_ok.mp hr
  have error : 400 ≤ inner.status := h inner hinner
  rwa [Response.IsError, hf]

theorem ofText_status {type t : Text} {status : Int} {headers : Headers} {response : Response}
    (h : Response.ofText type status headers t = .ok response) : response.status = status := by
  unfold Response.ofText at h
  split at h
  · cases h
  · simp only at h
    split at h <;> cases h
    rfl

theorem refuses_plain {status : Int} (headers : Headers) (t : Text) (h : 400 ≤ status) :
    Refuses (Response.plain status headers t) := by
  intro response hr
  rw [Response.IsError, ofText_status hr]
  exact h

theorem compressed_status (minimum : Int) (headers : Headers) (r : Response) :
    (compressed minimum headers r).status = r.status := by
  unfold compressed
  split
  · simp only
    split <;> rfl
  · rfl

theorem status_ge (k : ErrorKind) : 400 ≤ k.status := by
  cases k <;> simp [ErrorKind.status]

inductive Problem.Early : Problem → Prop where
  | failure (f : Failure) : Early (.ofFailure f)
  | invalidData : Early .invalidData
  | unreadable : Early unreadable

theorem Problem.Early.refuses {p : Problem} (h : p.Early) : Refuses p.respond := by
  cases h with
  | failure f =>
    cases f with
    | vault e => exact refuses_plain _ _ (Int.ofNat_le.mpr (status_ge e.kind))
    | fault f => exact refuses_fault f
  | invalidData => exact refuses_plain _ _ (Int.le_refl 400)
  | unreadable =>
    have plain : Http.unreadable.respond =
        Response.plain 400 [] (Text.ofString "There was an error parsing the body") := rfl
    rw [plain]
    exact refuses_plain _ _ (Int.le_refl 400)

theorem contentOf_early {headers : Headers} {body : Bytes} {p : Problem}
    (h : contentOf headers body = .error p) : p.Early := by
  unfold contentOf at h
  split at h
  · cases h
  split at h
  · split at h <;> cases h
    · exact .invalidData
    · exact .unreadable
  · cases h

theorem body_early {r : Request} {p : Problem} (h : r.body = .error p) : p.Early := by
  unfold Request.body at h
  split at h <;> cases h
  exact .unreadable

/-- Without an accepted token a request does not get as far as to a task, and why does not depend on what is
random about it. -/
theorem Service.prepare_early {s : Service} {e : Endpoint} {r : Request} {now : Int} {f : Failure}
    (guarded : e.isGuarded = true)
    (hauth : Token.authenticate s.settings now (header? "authorization" r.headers) = .error f) :
    ∃ p : Problem, p.Early ∧ ∀ m : Moment, m.now = now → s.prepare m e r = .error p := by
  have caller : s.caller now r = .error (.ofFailure f) := by
    rw [Service.caller, hauth]
    rfl
  cases hbody : (if e.takesBody then r.body else .ok [] : Except Problem Bytes) with
  | error p =>
    refine ⟨p, ?_, fun m hm => ?_⟩
    · split at hbody
      · exact body_early hbody
      · cases hbody
    · rw [prepare_eq, hbody]
      rfl
  | ok body =>
    cases hcontent : contentOf r.headers body with
    | error p =>
      refine ⟨p, contentOf_early hcontent, fun m hm => ?_⟩
      rw [prepare_eq, bind_of_ok hbody, hcontent]
      rfl
    | ok content =>
      refine ⟨.ofFailure f, .failure f, fun m hm => ?_⟩
      subst hm
      rw [prepare_eq, bind_of_ok hbody, bind_of_ok hcontent, guarded, if_pos rfl, caller]
      rfl

/-- A layer that refuses a request alike over all databases. -/
def Blind (layer : App → Moment → Request → Except Fault Response × Database) (app : App) (now : Int) (r : Request) :
    Prop :=
  ∃ result, Refuses result ∧ ∀ (db : Database) (m : Moment), m.now = now →
    layer { app with database := db } m r = (result, db)

namespace App

variable {app : App} {now : Int} {r : Request} {e : Endpoint} {f : Failure} (guarded : e.isGuarded = true)
  (fits : (e.template app.base).fit r.path = .fits)
  (hauth : Token.authenticate app.settings now (header? "authorization" r.headers) = .error f)
include guarded fits hauth

theorem routed_blind : Blind routed app now r := by
  have hw : e ≠ .welcome := by
    rintro rfl
    cases guarded
  rcases Route.find_of_fits fits hw r.method with hroute | hroute | hroute
  · obtain ⟨p, early, hp⟩ := Service.prepare_early guarded hauth
    refine ⟨p.respond, early.refuses, fun db m hm => ?_⟩
    simp only [routed, hroute, Service.serve, hp m hm]
  · refine ⟨Problem.notFound, refuses_plain _ _ (by decide), fun db m _ => ?_⟩
    simp only [routed, hroute]
  · refine ⟨.error .badValue, refuses_fault _, fun db m _ => ?_⟩
    simp only [routed, hroute]

theorem inflated_blind : Blind inflated app now r := by
  obtain ⟨result, refuses, hrouted⟩ := routed_blind guarded fits hauth
  refine ⟨_, refuses.map (compressed_status app.settings.gzipMinimumSize r.headers), fun db m hm => ?_⟩
  simp only [inflated, hrouted db m hm]
  rfl

theorem unpacked_blind : Blind unpacked app now r := by
  have settings (db : Database) : ({ app with database := db } : App).settings = app.settings := rfl
  cases hi : inflateBody app.settings.maxInflatedBodySize r.headers r.messages with
  | untouched =>
    obtain ⟨result, refuses, hinflated⟩ := inflated_blind guarded fits hauth
    refine ⟨result, refuses, fun db m hm => ?_⟩
    simp only [unpacked, settings, hi]
    exact hinflated db m hm
  | replaced headers messages =>
    have received : app.received? r = some { r with headers, messages } := by simp only [received?, hi]
    rw [← received?_authorization received] at hauth
    obtain ⟨result, refuses, hinflated⟩ := inflated_blind (r := { r with headers, messages }) guarded fits hauth
    refine ⟨result, refuses, fun db m hm => ?_⟩
    simp only [unpacked, settings, hi]
    exact hinflated db m hm
  | refused status reason =>
    have error : (400 : Int) ≤ status := by
      rcases inflateBody_refused hi with ⟨rfl, _⟩ | ⟨rfl, _⟩
      · decide
      · decide
    refine ⟨_, refuses_plain [] (Text.ofString reason) error, fun db m _ => ?_⟩
    simp only [unpacked, settings, hi]
  | abandoned =>
    refine ⟨.error .unavailable, refuses_fault _, fun db m _ => ?_⟩
    simp only [unpacked, settings, hi]
  | failed f =>
    refine ⟨.error f, refuses_fault _, fun db m _ => ?_⟩
    simp only [unpacked, settings, hi]

/-- The refusal as it leaves the application; a fault leaves it without a trace id. -/
theorem handle_refuses (off : app.settings.allowedOrigins = []) :
    ∃ result, Refuses result ∧ ∀ (db : Database) (m : Moment), m.now = now →
      handle { app with database := db } m r =
        (match result with
          | .ok response => response.withHeader "x-trace-id" (traceId m r)
          | .error _ => Problem.crash, { app with database := db }) := by
  obtain ⟨result, refuses, hunpacked⟩ := unpacked_blind guarded fits hauth
  refine ⟨result, refuses, fun db m hm => ?_⟩
  have settings : ({ app with database := db } : App).settings = app.settings := rfl
  simp only [handle, shared, settings, off, List.isEmpty_nil, if_true, traced, hunpacked db m hm]
  cases result with
  | ok response => rfl
  | error f => rfl

end App

theorem filter_setHeader (name : String) (value : Text) (headers : Headers) :
    (setHeader name value headers).filter (fun h => h.1 ≠ Text.ofString name) =
      headers.filter fun h => h.1 ≠ Text.ofString name := by
  induction headers with
  | nil => simp [setHeader]
  | cons h rest ih =>
    obtain ⟨n, v⟩ := h
    by_cases hn : n = Text.ofString name
    · simp [setHeader, hn]
    · simpa [setHeader, hn] using ih

/-- A caller whose token is missing or not accepted gets an error from every endpoint that asks for one, the same
error over any two databases, and leaves both as they are. Responses may differ in a trace id that was made up. -/
theorem unauthenticated_learns_nothing {app : App} {now : Int} {r : Request} {e : Endpoint} {f : Failure}
    (off : app.settings.allowedOrigins = []) (guarded : e.isGuarded = true)
    (fits : (e.template app.base).fit r.path = .fits)
    (hauth : Token.authenticate app.settings now (header? "authorization" r.headers) = .error f)
    (db db' : Database) (m m' : Moment) (hm : m.now = now) (hm' : m'.now = now) :
    (App.handle { app with database := db } m r).2.database = db ∧
      (App.handle { app with database := db } m r).1.IsError ∧
      (App.handle { app with database := db } m r).1.untraced =
        (App.handle { app with database := db' } m' r).1.untraced ∧
      (App.traceId m r = App.traceId m' r → (App.handle { app with database := db } m r).1 =
        (App.handle { app with database := db' } m' r).1) := by
  obtain ⟨result, refuses, h⟩ := App.handle_refuses guarded fits hauth off
  rw [h db m hm, h db' m' hm']
  refine ⟨rfl, ?_, ?_, ?_⟩
  · cases result with
    | ok response => exact refuses response rfl
    | error f => exact (by decide : Problem.crash.IsError)
  · cases result with
    | ok response => simp only [Response.untraced, Response.withHeader, filter_setHeader]
    | error f => rfl
  · intro same
    rw [same]

def closedApp : App :=
  ⟨⟨{ secretKey := Text.ofString "k", corsOrigins := [] }, none⟩, [.text (Text.ofString "/api")], none⟩

def forgedUpload : Request :=
  { method := Text.ofString "POST"
    path := Text.ofString "/api/data/"
    headers := [(Text.ofString "authorization", Text.ofString "Bearer not.a.token")]
    messages := [.body (Text.ofString "\x7b\"user_id\":1\x7d").asciiBytes false] }

theorem forged_upload_learns_nothing :
    closedApp.settings.allowedOrigins = [] ∧
      (Endpoint.upload.template closedApp.base).fit forgedUpload.path = .fits ∧
      (Token.authenticate closedApp.settings 5 (header? "authorization" forgedUpload.headers)).isOk = false ∧
      (App.handle { closedApp with database := some {} } ⟨5, [], []⟩ forgedUpload).2.database = some {} ∧
      (App.handle { closedApp with database := some {} } ⟨5, [], []⟩ forgedUpload).1.IsError ∧
      (App.handle { closedApp with database := some {} } ⟨5, [], []⟩ forgedUpload).1.untraced =
        (App.handle { closedApp with database := none } ⟨5, [1], [48]⟩ forgedUpload).1.untraced := by
  have off : closedApp.settings.allowedOrigins = [] := by decide
  have fits : (Endpoint.upload.template closedApp.base).fit forgedUpload.path = .fits := by decide
  have refused : (Token.authenticate closedApp.settings 5
      (header? "authorization" forgedUpload.headers)).isOk = false := by decide +kernel
  cases hauth : Token.authenticate closedApp.settings 5 (header? "authorization" forgedUpload.headers) with
  | ok user =>
    rw [hauth] at refused
    cases refused
  | error f =>
    obtain ⟨unchanged, error, same, _⟩ := unauthenticated_learns_nothing off rfl fits hauth (some {}) none
      ⟨5, [], []⟩ ⟨5, [1], [48]⟩ rfl rfl
    exact ⟨off, fits, rfl, unchanged, error, same⟩

end Strongbox.Http
