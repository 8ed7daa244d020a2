import Strongbox.Proofs.Http.Answers
import Strongbox.Proofs.Http.Unauthenticated

/-!
# Trace ids

Every response that is made inside of the layer for trace ids has the id of its request. A fault leaves that layer
without a response, and the one that is made for it outside has none: so a trace id is lost with everything that
nobody expected, and with nothing else.
-/

namespace Strongbox.Http

/-- The response has one trace id, and it is this one. -/
def Response.Carries (r : Response) (id : Text) : Prop :=
  (r.headers.filter fun h => h.1 = Text.ofString "x-trace-id") = [(Text.ofString "x-trace-id", id)]

instance (r : Response) (id : Text) : Decidable (r.Carries id) :=
  inferInstanceAs (Decidable (_ = _))

theorem filter_setHeader_self (name : String) (value : Text) (headers : Headers) :
    ((setHeader name value headers).filter fun h => h.1 = Text.ofString name) = [(Text.ofString name, value)] := by
  induction headers with
  | nil => simp [setHeader]
  | cons h rest ih =>
    obtain ⟨n, v⟩ := h
    by_cases hn : n = Text.ofString name
    · simp [setHeader, hn, List.filter_filter]
    · simpa [setHeader, hn] using ih

theorem Response.carries_withHeader (r : Response) (id : Text) : (r.withHeader "x-trace-id" id).Carries id :=
  filter_setHeader_self "x-trace-id" id r.headers

theorem not_carries_crash (id : Text) : ¬ Problem.crash.Carries id := by
  have none : (Problem.crash.headers.filter fun h => h.1 = Text.ofString "x-trace-id") = [] := by decide
  rw [Response.Carries, none]
  exact nofun

theorem Response.plain_ascii (status : Int) {t : Text} (h : t.Ascii) :
    ∃ response, Response.plain status [] t = .ok response := by
  obtain ⟨body, encoded⟩ : ∃ body, Utf8.encode? t = some body := ⟨_, Utf8.encode?_of_ascii h⟩
  refine ⟨⟨status, [(Text.ofString "content-type", plainType)], body⟩, ?_⟩
  simp only [Response.plain, Response.ofText, encoded]
  rfl

theorem Problem.notFound_ok : ∃ response, Problem.notFound = .ok response :=
  Response.plain_ascii 404 (by unfold Text.Ascii; decide)

theorem refused_reason {maxSize : Int} {headers : Headers} {messages : List Message} {status : Nat}
    {reason : String} (h : inflateBody maxSize headers messages = .refused status reason) :
    (Text.ofString reason).Ascii := by
  unfold Text.Ascii
  rcases App.inflateBody_refused h with ⟨_, rfl⟩ | ⟨_, rfl⟩
  · decide
  · decide

namespace App

/-- The faults that nothing on the way of a request expects. -/
inductive Raises (app : App) (m : Moment) (r : Request) : Fault → Prop where
  | lost (h : inflateBody app.settings.maxInflatedBodySize r.headers r.messages = .abandoned) :
      Raises app m r .unavailable
  | limit (h : inflateBody app.settings.maxInflatedBodySize r.headers r.messages = .failed f) : Raises app m r f
  | path (hr : app.received? r = some received)
      (h : Route.find app.base received.method received.path = .failed) : Raises app m r .badValue
  | endpoint (hr : app.received? r = some received)
      (hroute : Route.find app.base received.method received.path = .served e)
      (hserve : (app.service.serve m e received app.database).1 = .error p) (h : p.respond = .error f) :
      Raises app m r f

variable {app : App} {m : Moment} {r received : Request} {f : Fault} {id : Text}

theorem routed_error_iff (received : Request) : (app.routed m received).1 = .error f ↔
    (Route.find app.base received.method received.path = .failed ∧ f = .badValue) ∨
    ∃ e p, Route.find app.base received.method received.path = .served e ∧
      (app.service.serve m e received app.database).1 = .error p ∧ p.respond = .error f := by
  cases hroute : Route.find app.base received.method received.path with
  | moved path => simp [routed, hroute]
  | unknown =>
    obtain ⟨response, found⟩ := Problem.notFound_ok
    simp [routed, hroute, found]
  | failed => simp [routed, hroute, eq_comm]
  | served e =>
    rcases hserve : app.service.serve m e received app.database with ⟨result, db⟩
    cases result with
    | ok response => simp [routed, hroute, hserve]
    | error p => simp [routed, hroute, hserve]

theorem raises_received (hr : app.received? r = some received) :
    app.Raises m r f ↔ (app.routed m received).1 = .error f := by
  rw [routed_error_iff]
  constructor
  · intro h
    cases h with
    | lost h => simp [received?, h] at hr
    | limit h => simp [received?, h] at hr
    | path hr' h =>
      cases hr.symm.trans hr'
      exact .inl ⟨h, rfl⟩
    | endpoint hr' hroute hserve h =>
      cases hr.symm.trans hr'
      exact .inr ⟨_, _, hroute, hserve, h⟩
  · rintro (⟨h, rfl⟩ | ⟨e, p, hroute, hserve, h⟩)
    · exact .path hr h
    · exact .endpoint hr hroute hserve h

theorem raises_stopped (hr : app.received? r = none) : app.Raises m r f ↔
    inflateBody app.settings.maxInflatedBodySize r.headers r.messages = .abandoned ∧ f = .unavailable ∨
      inflateBody app.settings.maxInflatedBodySize r.headers r.messages = .failed f := by
  constructor
  · intro h
    cases h with
    | lost h => exact .inl ⟨h, rfl⟩
    | limit h => exact .inr h
    | path hr' _ => cases hr.symm.trans hr'
    | endpoint hr' _ _ _ => cases hr.symm.trans hr'
  · rintro (⟨h, rfl⟩ | h)
    · exact .lost h
    · exact .limit h

theorem unpacked_received (hr : app.received? r = some received) :
    (app.unpacked m r).1 = .error f ↔ app.Raises m r f := by
  rw [raises_received hr, unpacked_of_received hr]
  exact map_eq_error

/-- Nothing but these faults keeps the layers below from a response. -/
theorem unpacked_error_iff : (app.unpacked m r).1 = .error f ↔ app.Raises m r f := by
  cases hi : inflateBody app.settings.maxInflatedBodySize r.headers r.messages with
  | untouched =>
    have hr : app.received? r = some r := by simp only [received?, hi]
    exact unpacked_received hr
  | replaced headers messages =>
    have hr : app.received? r = some { r with headers, messages } := by simp only [received?, hi]
    exact unpacked_received hr
  | refused status reason =>
    have hr : app.received? r = none := by simp only [received?, hi]
    obtain ⟨response, refused⟩ := Response.plain_ascii status (refused_reason hi)
    simp [raises_stopped hr, unpacked, hi, refused]
  | abandoned =>
    have hr : app.received? r = none := by simp only [received?, hi]
    simp [raises_stopped hr, unpacked, hi, eq_comm]
  | failed g =>
    have hr : app.received? r = none := by simp only [received?, hi]
    simp [raises_stopped hr, unpacked, hi]

end App

/-- Where no other origins are allowed, a response has the trace id that the request brought, whatever its target,
its body and the database are; unless a fault was raised, whose response has none. -/
theorem trace_id_unless_fault {app : App} {m : Moment} {r : Request} {id : Text}
    (off : app.settings.allowedOrigins = []) (brought : header? "x-trace-id" r.headers = some id) (filled : id ≠ []) :
    ((app.handle m r).1.Carries id ↔ ∀ f, ¬ app.Raises m r f) ∧
      ∀ f, app.Raises m r f → (app.handle m r).1 = Problem.crash := by
  have own : App.traceId m r = id := by
    obtain ⟨c, rest, rfl⟩ := List.exists_cons_of_ne_nil filled
    simp only [App.traceId, brought]
  simp only [← App.unpacked_error_iff]
  cases h : (app.unpacked m r).1 with
  | ok response =>
    have handled : (app.handle m r).1 = response.withHeader "x-trace-id" id := by
      simp only [App.handle, App.shared, off, List.isEmpty_nil, if_true, App.traced, own, h]
      rfl
    rw [handled]
    have ended (f : Fault) : (Except.ok response : Except Fault Response) ≠ .error f := by
      intro same
      cases same
    exact ⟨⟨fun _ => ended, fun _ => response.carries_withHeader id⟩, fun f raised => absurd raised (ended f)⟩
  | error f =>
    have handled : (app.handle m r).1 = Problem.crash := by
      simp only [App.handle, App.shared, off, List.isEmpty_nil, if_true, App.traced, h]
      rfl
    rw [handled]
    refine ⟨⟨fun carries => absurd carries (not_carries_crash id), fun none => absurd rfl (none f)⟩, fun _ _ => rfl⟩

def tracedApp : App :=
  ⟨⟨{ secretKey := Text.ofString "k", corsOrigins := [] }, none⟩, [.text (Text.ofString "/api")], some {}⟩

def tracedLogin (coding : Headers) (body : String) : Request :=
  { method := Text.ofString "POST"
    path := Text.ofString "/api/auth/login"
    headers := coding ++ [
      (Text.ofString "content-type", Text.ofString "application/json"),
      (Text.ofString "x-trace-id", Text.ofString "t")]
    messages := [.body (Text.ofString body).asciiBytes false] }

def mislabelledLogin : Request :=
  tracedLogin [(Text.ofString "content-encoding", Text.ofString "gzip")] "definitely not gzip"

def surrogateLogin : Request := tracedLogin [] "\x7b\"login\":\"\\ud800\",\"master_password\":\"p\"\x7d"

theorem refused_body_keeps_trace_id : tracedApp.settings.allowedOrigins = [] ∧
    header? "x-trace-id" mislabelledLogin.headers = some (Text.ofString "t") ∧ Text.ofString "t" ≠ [] ∧
      (tracedApp.handle ⟨5, [], []⟩ mislabelledLogin).1.status = 400 ∧
      (tracedApp.handle ⟨5, [], []⟩ mislabelledLogin).1.Carries (Text.ofString "t") := by
  have off : tracedApp.settings.allowedOrigins = [] := by decide
  have brought : header? "x-trace-id" mislabelledLogin.headers = some (Text.ofString "t") := by decide
  have filled : Text.ofString "t" ≠ [] := by decide
  have status : (tracedApp.handle ⟨5, [], []⟩ mislabelledLogin).1.status = 400 := by decide +kernel
  obtain ⟨carries, crash⟩ := trace_id_unless_fault (m := ⟨5, [], []⟩) off brought filled
  refine ⟨off, brought, filled, status, carries.mpr fun f raised => ?_⟩
  rw [crash f raised] at status
  exact absurd status (by decide)

/-- Such a login cannot be looked up, and the response has lost the id. -/
theorem fault_loses_trace_id : tracedApp.settings.allowedOrigins = [] ∧
    header? "x-trace-id" surrogateLogin.headers = some (Text.ofString "t") ∧
      (tracedApp.handle ⟨5, [], []⟩ surrogateLogin).1 = Problem.crash ∧
      ¬ (tracedApp.handle ⟨5, [], []⟩ surrogateLogin).1.Carries (Text.ofString "t") := by
  have crashed : (tracedApp.handle ⟨5, [], []⟩ surrogateLogin).1 = Problem.crash := by decide +kernel
  refine ⟨by decide, by decide, crashed, ?_⟩
  rw [crashed]
  exact not_carries_crash _

end Strongbox.Http
