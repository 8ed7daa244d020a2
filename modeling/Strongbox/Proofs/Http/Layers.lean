import Strongbox.Http.App
import Strongbox.Proofs.Except
import Strongbox.Proofs.Store.Evaluation

/-!
# The layers of the application

Only serving an endpoint changes the database. It is served with the request as it came, or with its body
inflated; and before its call runs the request has passed everything that can be checked without the
database.
-/

namespace Strongbox.Http

namespace App

/-- The request with its body inflated, if it is passed on at all. -/
def received? (app : App) (r : Request) : Option Request :=
  match inflateBody app.settings.maxInflatedBodySize r.headers r.messages with
  | .untouched => some r
  | .replaced headers messages => some { r with headers, messages }
  | _ => none

variable {app : App} {m : Moment} {r received : Request}

/-- An application that has started codes batches under the key of its settings, and its database has tables. -/
theorem start_ok {s : Settings} {db : Database} (h : start s db = .ok app) :
    ∃ pool, app.service = ⟨s, some pool⟩ ∧ HasherPool.ofKey s.integrityHashKey s.hasherPoolSize = .ok pool ∧
      app.database = db.create := by
  unfold start at h
  split at h
  · cases h
  obtain ⟨base, _, h⟩ := bind_eq_ok.mp h
  obtain ⟨_, _, h⟩ := bind_eq_ok.mp h
  obtain ⟨pool, hpool, h⟩ := bind_eq_ok.mp h
  split at h
  · cases h
  · cases h
    exact ⟨pool, rfl, mapError_eq_ok.mp hpool, rfl⟩

theorem unpacked_database (app : App) (m : Moment) (r : Request) : (app.unpacked m r).2 = app.database ∨
    ∃ received, app.received? r = some received ∧ (app.unpacked m r).2 = (app.routed m received).2 := by
  unfold unpacked received?
  cases inflateBody app.settings.maxInflatedBodySize r.headers r.messages with
  | untouched => exact .inr ⟨r, rfl, rfl⟩
  | replaced headers messages => exact .inr ⟨{ r with headers, messages }, rfl, rfl⟩
  | abandoned => exact .inl rfl
  | refused status reason => exact .inl rfl
  | failed f => exact .inl rfl

theorem unpacked_of_received (h : app.received? r = some received) : app.unpacked m r = app.inflated m received := by
  unfold received? at h
  unfold unpacked
  split at h
  · cases h
    rename_i hi
    simp only [hi]
  · cases h
    rename_i hi
    simp only [hi]
  · cases h

theorem shared_database (app : App) (m : Moment) (r : Request) : (app.shared m r).2 = app.database ∨
    (app.shared m r).2 = (app.unpacked m r).2 := by
  unfold shared
  simp only
  split
  · exact .inr rfl
  split
  · exact .inl rfl
  · exact .inr rfl

/-- What changes the database is the route of the request as it is passed on. -/
theorem handle_database_changed (h : (app.handle m r).2.database ≠ app.database) :
    ∃ received, app.received? r = some received ∧
      (app.handle m r).2.database = (app.routed m received).2 := by
  have same : (app.handle m r).2.database = (app.shared m r).2 := rfl
  rw [same] at h ⊢
  rcases shared_database app m r with hs | hs
  · exact absurd hs h
  · rw [hs] at h ⊢
    rcases unpacked_database app m r with hu | hu
    · exact absurd hu h
    · exact hu

/-- All layers treat alike what the route answers alike. -/
theorem handle_alike {db db' : Database} (h : ∀ received, app.received? r = some received →
      (routed { app with database := db } m received).1 = (routed { app with database := db' } m received).1) :
    (handle { app with database := db } m r).1 = (handle { app with database := db' } m r).1 := by
  have settings (db : Database) : ({ app with database := db } : App).settings = app.settings := rfl
  have unpacked : (unpacked { app with database := db } m r).1 = (unpacked { app with database := db' } m r).1 := by
    cases received : app.received? r with
    | some inner =>
      have passed (db : Database) : received? { app with database := db } r = some inner := received
      rw [unpacked_of_received (passed db), unpacked_of_received (passed db'), inflated, inflated]
      simp only [settings, h inner received]
    | none =>
      unfold received? at received
      unfold App.unpacked
      simp only [settings]
      split <;> simp_all
  have shared : (shared { app with database := db } m r).1 = (shared { app with database := db' } m r).1 := by
    unfold App.shared traced
    simp only [settings]
    split
    · rw [unpacked]
    · split
      · rfl
      · rw [unpacked]
  unfold handle
  simp only [shared]

theorem received?_target (h : app.received? r = some received) :
    received.method = r.method ∧ received.path = r.path := by
  unfold received? at h
  split at h <;> cases h
  · exact ⟨rfl, rfl⟩
  · exact ⟨rfl, rfl⟩

theorem received?_route (h : app.received? r = some received) :
    Route.find app.base received.method received.path = Route.find app.base r.method r.path := by
  obtain ⟨hmethod, hpath⟩ := received?_target h
  rw [hmethod, hpath]

/-- Headers that do not describe the body are passed on as they are. -/
theorem header?_replacedHeaders {name : String} (length : Nat) (headers : Headers)
    (hencoding : Text.ofString name ≠ Text.ofString "content-encoding")
    (hlength : Text.ofString name ≠ Text.ofString "content-length") :
    header? name (replacedHeaders length headers) = header? name headers := by
  have kept : ∀ h : Text × Text, (h.1 == Text.ofString name) = true →
      (h.1 ≠ Text.ofString "content-encoding" ∧ h.1 ≠ Text.ofString "content-length") := by
    intro h hn
    rw [beq_iff_eq.mp hn]
    exact ⟨hencoding, hlength⟩
  have added : (Text.ofString "content-length" == Text.ofString name) = false :=
    beq_eq_false_iff_ne.mpr (Ne.symm hlength)
  unfold header? replacedHeaders
  induction headers with
  | nil => simp [added]
  | cons h rest ih =>
    cases hn : h.1 == Text.ofString name with
    | true => simp [kept h hn, hn]
    | false =>
      by_cases hk : h.1 ≠ Text.ofString "content-encoding" ∧ h.1 ≠ Text.ofString "content-length"
      · simpa [hk, hn] using ih
      · simpa [hk, hn] using ih

/-- The two answers to a body that is not inflated. -/
theorem inflateBody_refused {maxSize : Int} {headers : Headers} {messages : List Message} {status : Nat}
    {reason : String} (h : inflateBody maxSize headers messages = .refused status reason) :
    status = 400 ∧ reason = "invalid gzip body" ∨ status = 413 ∧ reason = "request body too large" := by
  unfold inflateBody at h
  split at h
  · split at h
    · cases h
    · split at h <;> cases h
      · exact .inl ⟨rfl, rfl⟩
      · exact .inr ⟨rfl, rfl⟩
  · cases h

theorem inflateBody_headers {maxSize : Int} {headers replaced : Headers} {messages messages' : List Message}
    (h : inflateBody maxSize headers messages = .replaced replaced messages') :
    ∃ length, replaced = replacedHeaders length headers := by
  unfold inflateBody at h
  split at h
  · split at h
    · cases h
    · split at h <;> cases h
      exact ⟨_, rfl⟩
  · cases h

theorem received?_authorization (h : app.received? r = some received) :
    header? "authorization" received.headers = header? "authorization" r.headers := by
  unfold received? at h
  split at h
  · cases h
    rfl
  · rename_i headers messages hi
    cases h
    obtain ⟨length, rfl⟩ := inflateBody_headers hi
    exact header?_replacedHeaders length r.headers (by decide) (by decide)
  · cases h

theorem routed_served (app : App) {e : Endpoint} (h : Route.find app.base r.method r.path = .served e) :
    (app.routed m r).2 = (app.service.serve m e r app.database).2 := by
  unfold routed
  rw [h]

section Served

variable {e : Endpoint} {db : Database} (hroute : Route.find app.base r.method r.path = .served e)
include hroute

theorem routed_ok {response : Response} (hserve : app.service.serve m e r app.database = (.ok response, db)) :
    app.routed m r = (.ok response, db) := by
  simp only [routed, hroute, hserve]

theorem routed_error {p : Problem} (hserve : app.service.serve m e r app.database = (.error p, db)) :
    app.routed m r = (p.respond, db) := by
  simp only [routed, hroute, hserve]

end Served

end App

namespace Service

variable {s : Service} {m : Moment} {e : Endpoint} {r : Request} {db : Database}

/-- The checks of a request in their order. -/
theorem prepare_eq (s : Service) (m : Moment) (e : Endpoint) (r : Request) : s.prepare m e r =
    (if e.takesBody then r.body else .ok []) >>= fun body => contentOf r.headers body >>= fun content =>
      (if e.isGuarded then s.caller m.now r else .ok 0) >>= fun user => s.gate e body >>= fun _ =>
        s.task m.random user content e := by
  unfold prepare
  cases e.takesBody with
  | false => cases e.isGuarded <;> rfl
  | true => cases e.isGuarded <;> rfl

/-- What a request has passed that has a task, where a body and a token are asked for. -/
theorem prepare_ok {task : Task} (takes : e.takesBody = true) (guarded : e.isGuarded = true)
    (h : s.prepare m e r = .ok task) :
    ∃ body content user, r.body = .ok body ∧ contentOf r.headers body = .ok content ∧
      s.caller m.now r = .ok user ∧ s.gate e body = .ok () ∧ s.task m.random user content e = .ok task := by
  simp only [prepare, takes, guarded, if_true] at h
  obtain ⟨body, hbody, h⟩ := bind_eq_ok.mp h
  obtain ⟨content, hcontent, h⟩ := bind_eq_ok.mp h
  obtain ⟨user, huser, h⟩ := bind_eq_ok.mp h
  obtain ⟨_, hgate, h⟩ := bind_eq_ok.mp h
  exact ⟨body, content, user, hbody, hcontent, huser, hgate, h⟩

/-- Only a call that ends well changes the database, to what the call leaves by itself. -/
theorem serve_database_changed (h : (s.serve m e r db).2 ≠ db) :
    ∃ call answer left, s.prepare m e r = .ok (.call call) ∧
      (call.routine m.now).eval ⟨db, none, false⟩ = .ok (answer, left) ∧
      (s.serve m e r db).2 = left.committed := by
  unfold serve at h ⊢
  cases hp : s.prepare m e r with
  | error p => simp [hp] at h
  | ok task =>
    cases task with
    | say type t => simp [hp] at h
    | call call =>
      simp only [hp, run] at h ⊢
      cases hr : (Store.runCall (ρ := Unit) Store.undisturbed s.settings.requestTimeoutSeconds ⟨db, none, false⟩
          (call.routine m.now)).result with
      | error f => exact absurd (Store.runCall_error_database Store.undisturbed_alone hr) h
      | ok answer =>
        obtain ⟨left, hx, hd⟩ := Store.runCall_ok Store.undisturbed_alone hr
        exact ⟨call, answer, left, rfl, hx, hd⟩

end Service

end Strongbox.Http
