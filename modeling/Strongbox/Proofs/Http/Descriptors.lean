import Strongbox.Proofs.Http.Answers
import Strongbox.Proofs.Http.Runs
import Strongbox.Proofs.Token.Genuine
import Strongbox.Proofs.Vault.Readings

/-!
# Descriptors on the wire

The states that a user is given can be sent back as they are: they are accepted, and nothing is left to do about
them. What stands between is the written form of every state, and how bodies are read.
-/

namespace Strongbox.Http

open Vault

theorem isUserId_of_authenticate {s : Settings} {now user : Int} {header : Option Text}
    (h : Token.authenticate s now header = .ok user) : IsUserId user := by
  obtain ⟨text, _, verified⟩ := bind_eq_ok.mp h
  obtain ⟨_, _, _, _, genuine⟩ := Token.genuine_of_verify verified
  obtain ⟨_, claims, _, _, entitled⟩ := genuine.carries
  have range := entitled.range
  constructor
  · omega
  · omega

structure App.Brings (app : App) (m : Moment) (r received : Request) (e : Endpoint) (user : Int) : Prop where
  route : Route.find app.base r.method r.path = .served e
  passed : app.received? r = some received
  token : Token.authenticate app.settings m.now (header? "authorization" r.headers) = .ok user

theorem App.Brings.caller {app : App} {m : Moment} {r received : Request} {e : Endpoint} {user : Int}
    (h : app.Brings m r received e user) : app.service.caller m.now received = .ok user := by
  have token := h.token
  rw [← received?_authorization h.passed] at token
  exact mapError_eq_ok.mpr token

structure Request.Holds (r : Request) (members : List (Text × Json)) : Prop where
  type : (header? "content-type" r.headers).map isJsonType = some true
  body : ∃ body, r.body = .ok body ∧ Json.parseLenient body = .ok (.object members)

namespace Service

variable {s : Service} {m : Moment} {r : Request} {user : Int}

theorem prepare_states (caller : s.caller m.now r = .ok user) :
    s.prepare m .states r = .ok (.call (.allStates user)) := by
  have takes : Endpoint.states.takesBody = false := by decide
  have guarded : Endpoint.states.isGuarded = true := rfl
  simp only [prepare_eq, takes, guarded, Bool.false_eq_true, if_false, if_true, caller]
  rfl

theorem prepare_compare {members : List (Text × Json)} {request : Comparison} (caller : s.caller m.now r = .ok user)
    (holds : r.Holds members) (checked : Comparison.check .value (.object members) = .ok request) :
    s.prepare m .compare r = .ok (.call (.compare user request)) := by
  obtain ⟨body, hbody, hparse⟩ := holds.body
  have takes : Endpoint.compare.takesBody = true := by decide
  have guarded : Endpoint.compare.isGuarded = true := rfl
  have content := contentOf_of_parse holds.type hparse
  have read : (Content.document (.object members)).read (Comparison.check .value) = .ok request := by
    simp only [Content.read, checked]
  rw [prepare_eq, takes, guarded, if_pos rfl, if_pos rfl, bind_of_ok hbody, bind_of_ok content, bind_of_ok caller]
  exact bind_of_ok read

end Service

namespace App

variable {app : App} {t : Tables} {m : Moment} {r received : Request} {user : Int}
  (stored : app.database = some t) (timed : app.settings.requestTimeoutSeconds.isPositive = true)
include stored timed

/-- A call that ends well when it is alone, and leaves the tables as they are, is answered. -/
theorem handle_reading {e : Endpoint} {call : Call} {answer : Answer} {left : Store.Session} {v : Json}
    (brings : app.Brings m r received e user) (hp : app.service.prepare m e received = .ok (.call call))
    (hx : (call.routine m.now).eval { database := some t } = .ok (answer, left)) (same : left.committed = some t)
    (printable : v.Printable)
    (hsuccess : app.service.success m.now e answer = (Response.json e.status [] v).mapError .fault) :
    (app.handle m r).1.Says e.status v ∧ (app.handle m r).2 = app := by
  obtain ⟨response, made, told⟩ := Response.json_printable e.status printable
  rw [made] at hsuccess
  have served := Service.serve_answered timed hp hx hsuccess
  rw [← stored, same] at served
  obtain ⟨set, handled⟩ := handle_served brings.route brings.passed served
  rw [handled]
  refine ⟨told.withHeaders set, ?_⟩
  rw [← stored]

variable (legible : ∀ d ∈ t.states user, d.Legible)
include legible

theorem handle_states (brings : app.Brings m r received .states user) :
    (app.handle m r).1.Says 200 (Listing.ofStates (t.states user)).toJson ∧ (app.handle m r).2 = app := by
  have hu := isUserId_of_authenticate brings.token
  have solo : ((Call.allStates user).routine m.now).solo t = .ok (.states (t.states user), t) := allStates_solo hu
  obtain ⟨left, hx, same⟩ := Store.Routine.eval_of_solo (s := { database := some t }) rfl rfl solo
  exact handle_reading stored timed brings (Service.prepare_states brings.caller) hx same
    (Listing.printable_toJson legible) rfl

theorem handle_compare {members : List (Text × Json)} (nonblank : ∀ d ∈ t.states user, d.recordId.blank = false)
    (brings : app.Brings m r received .compare user) (holds : received.Holds members)
    (named : Json.lookup? (Text.ofString "user_id") members = some (.int user))
    (listed : Json.lookup? (Text.ofString "states") members = some (.array ((t.states user).map Descriptor.toJson))) :
    (app.handle m r).1.Says 200 (Plan.toJson {}) ∧ (app.handle m r).2 = app := by
  have hu := isUserId_of_authenticate brings.token
  have checked := Comparison.check_members .value named listed legible
  have hx : ((Call.compare user ⟨some user, t.states user⟩).routine m.now).eval { database := some t } =
      .ok (.plan {}, { database := some t }) := by
    rw [Sync.call_compare_eval hu nonblank, Sync.plan_self]
  exact handle_reading stored timed brings (Service.prepare_compare brings.caller holds checked) hx rfl
    Plan.printable_empty rfl

end App

/-- What becomes of the states of a user on their way to a client and back. -/
structure RoundTrip (app : App) (user : Int) (states : List Descriptor) : Prop where
  listed : ∀ {m r received}, app.Brings m r received .states user →
    (app.handle m r).1.Says 200 (Listing.ofStates states).toJson ∧ (app.handle m r).2 = app
  /-- A client reads what it is given, if it can read how many states there are. -/
  readable : (Text.ofNat states.length).length ≤ Text.digitLimit →
    ∃ form, Utf8.encode? (Listing.ofStates states).toJson.toText = some form ∧
      Json.parseStrict form = .ok (Listing.ofStates states).toJson
  sendable : ∃ form, Utf8.encode? (Comparison.toJson ⟨some user, states⟩).toText = some form ∧
    Json.parseStrict form = .ok (Comparison.toJson ⟨some user, states⟩)
  compared : ∀ {m r received members}, app.Brings m r received .compare user → received.Holds members →
    Json.lookup? (Text.ofString "user_id") members = some (.int user) →
    Json.lookup? (Text.ofString "states") members = some (.array (states.map Descriptor.toJson)) →
    (app.handle m r).1.Says 200 (Plan.toJson {}) ∧ (app.handle m r).2 = app

def App.Unlisted (app : App) (user : Int) : Prop :=
  ∀ {m r received}, app.Brings m r received .states user → (app.handle m r).1.status = 503

theorem short_userId {user : Int} (hu : IsUserId user) : (Text.ofNat user.natAbs).length ≤ Text.digitLimit := by
  have positive := hu.positive
  have small := hu.small
  apply Text.short_of_held
  · omega
  · omega

theorem App.Keeps.roundTrip {app : App} {t : Tables} {user : Int} (keeps : app.Keeps t)
    (timed : app.settings.requestTimeoutSeconds.isPositive = true) (hu : IsUserId user) :
    RoundTrip app user (t.states user) := by
  obtain ⟨stored, reachable⟩ := keeps
  have orderly := reachable_orderly reachable
  have legible : ∀ d ∈ t.states user, d.Legible := fun d hd => (orderly.states_legible d hd).1
  constructor
  · intro m r received brings
    exact handle_states stored timed legible brings
  · intro short
    exact Json.parseStrict_toText (by decide) (Listing.exact_toJson legible short)
  · exact Json.parseStrict_toText (by decide) (Comparison.exact_toJson (short_userId hu) legible)
  · intro m r received members brings holds named listed
    have nonblank : ∀ d ∈ t.states user, d.recordId.blank = false := fun d hd => (orderly.states_legible d hd).2
    exact handle_compare stored timed legible nonblank brings holds named listed

theorem App.unlisted_untimed {app : App} {user : Int}
    (untimed : app.settings.requestTimeoutSeconds.isPositive = false) : app.Unlisted user := by
  intro m r received brings
  have refused : app.service.serve m .states received app.database = (.error (.ofFailure Store.cancelled), app.database) :=
    Service.serve_untimed untimed (Service.prepare_states brings.caller)
  obtain ⟨response, made, status⟩ :
      ∃ response, (Problem.ofFailure Store.cancelled).respond = .ok response ∧ response.status = 503 := ⟨_, rfl, rfl⟩
  obtain ⟨set, handled⟩ := handle_refused brings.route brings.passed refused made
  rw [handled]
  exact status

/-- The states of a user are read back as they are written, and they survive the way out and back. Only where calls
are given no time at all, no states are listed. -/
def App.Syncs (app : App) (user : Int) : Prop :=
  ∃ t, app.Keeps t ∧ (∀ d ∈ t.states user, d.Survives) ∧
    if app.settings.requestTimeoutSeconds.isPositive then RoundTrip app user (t.states user) else app.Unlisted user

theorem App.Keeps.syncs {app : App} {t : Tables} {user : Int} (keeps : app.Keeps t) (hu : IsUserId user) :
    app.Syncs user := by
  have orderly := reachable_orderly keeps.2
  refine ⟨t, keeps, fun d hd => (orderly.states_legible d hd).1.survives, ?_⟩
  split
  · rename_i timed
    exact keeps.roundTrip timed hu
  · rename_i untimed
    exact App.unlisted_untimed (Bool.eq_false_iff.mpr untimed)

/-- Whatever an application was asked since it was started, without tables or with those that calls lead to,
the states of every user that it authenticates survive. -/
theorem descriptors_survive_the_wire {app : App} {now user : Int} {header : Option Text}
    (authenticated : Token.authenticate app.settings now header = .ok user) (requests : List (Moment × Request)) :
    (∀ t, app.Keeps t → (app.afterwards requests).Syncs user) ∧
    ∀ s db, App.start s db = .ok app → (∀ t, db = some t → t.Reachable) → (app.afterwards requests).Syncs user := by
  have hu := isUserId_of_authenticate authenticated
  have synced : ∀ t, app.Keeps t → (app.afterwards requests).Syncs user := by
    intro t keeps
    obtain ⟨u, kept⟩ := App.afterwards_keeps keeps requests
    exact kept.syncs hu
  refine ⟨synced, ?_⟩
  intro s db started stored
  obtain ⟨t, keeps⟩ := App.start_keeps started stored
  exact synced t keeps

def storingSettings : Settings :=
  { Token.sampleSettings with integrityHashKey := Text.ofString "i", hasherPoolSize := 0 }

def storingApp : App :=
  ⟨⟨storingSettings, none⟩, [.text (Text.ofString "/api")], some Sync.sampleTables⟩

def bearer : Text × Text := (Text.ofString "authorization", Text.ofString "Bearer " ++ Token.sampleToken)

def sampleQuestion : Request :=
  { method := Text.ofString "GET", path := Text.ofString "/api/sync/", headers := [bearer] }

def sampleComparison (body : Bytes) : Request :=
  { method := Text.ofString "POST"
    path := Text.ofString "/api/sync/plan"
    headers := [bearer, (Text.ofString "content-type", Text.ofString "application/json")]
    messages := [.body body false] }

theorem sample_descriptors_survive :
    storingApp.Keeps Sync.sampleTables ∧
    Token.authenticate storingApp.settings 5 (some bearer.2) = .ok 1 ∧
    (storingApp.handle ⟨5, [], []⟩ sampleQuestion).1.Says 200 (Listing.ofStates (Sync.sampleTables.states 1)).toJson ∧
    ∃ body, Utf8.encode? (Comparison.toJson ⟨some 1, Sync.sampleTables.states 1⟩).toText = some body ∧
      (storingApp.handle ⟨5, [], []⟩ (sampleComparison body)).1.Says 200 (Plan.toJson {}) ∧
    ∃ app, App.start storingSettings (some Sync.sampleTables) = .ok app ∧ app.Syncs 1 := by
  have keeps : storingApp.Keeps Sync.sampleTables := ⟨rfl, Sync.sampleTables_reachable⟩
  have authenticated : Token.authenticate storingApp.settings 5 (some bearer.2) = .ok 1 := by decide +kernel
  have question : storingApp.Brings ⟨5, [], []⟩ sampleQuestion sampleQuestion .states 1 := by
    constructor
    · decide
    · rfl
    · exact authenticated
  have compares : Route.find storingApp.base (Text.ofString "POST") (Text.ofString "/api/sync/plan") =
      .served .compare := by decide
  have json : isJsonType (Text.ofString "application/json") = true := by decide
  obtain ⟨u, ⟨stored, _⟩, _, trip⟩ := (descriptors_survive_the_wire authenticated []).1 _ keeps
  have timed : (storingApp.afterwards []).settings.requestTimeoutSeconds.isPositive = true := by decide
  rw [if_pos timed] at trip
  cases stored
  obtain ⟨body, written, read⟩ := trip.sendable
  have comparison : storingApp.Brings ⟨5, [], []⟩ (sampleComparison body) (sampleComparison body) .compare 1 := by
    constructor
    · exact compares
    · rfl
    · exact authenticated
  have holds : (sampleComparison body).Holds _ :=
    ⟨congrArg some json, body, rfl, Json.parseLenient_of_parseStrict read⟩
  obtain ⟨app, started⟩ : ∃ app, App.start storingSettings (some Sync.sampleTables) = .ok app := by
    have starts : (App.start storingSettings (some Sync.sampleTables)).isOk = true := by decide +kernel
    cases started : App.start storingSettings (some Sync.sampleTables) with
    | error e =>
      rw [started] at starts
      cases starts
    | ok app => exact ⟨app, rfl⟩
  have known : Token.authenticate app.settings 5 (some bearer.2) = .ok 1 := by
    obtain ⟨_, service, _⟩ := App.start_ok started
    rw [App.settings, service]
    exact authenticated
  have reachable : ∀ t, some Sync.sampleTables = some t → t.Reachable := by
    rintro _ ⟨⟩
    exact Sync.sampleTables_reachable
  have synced := (descriptors_survive_the_wire known []).2 _ _ started reachable
  exact ⟨keeps, authenticated, (trip.listed question).1, body, written, (trip.compared comparison holds rfl rfl).1,
    app, started, synced⟩

end Strongbox.Http
