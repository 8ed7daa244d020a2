import Strongbox.Proofs.Accounts.Stability
import Strongbox.Proofs.Http.Answers
import Strongbox.Proofs.Schema.Reading
import Strongbox.Proofs.Token.Lifetime

/-!
# Registration over the network

A registration commits its user before it issues the token. So it is all or nothing as far as tokens can be issued
at all, which is a matter of the settings and of the time. Otherwise the login is taken, and nobody is told.
-/

namespace Strongbox

namespace Token

variable {s : Settings} {now user : Int}

/-- Now a token can be issued: the point of its expiry has a date, and there are an algorithm and a key to sign
with. -/
structure Issuable (s : Settings) (now : Int) : Prop where
  dated : Timestamp.isDated now = true
  expiry : Timestamp.isDated (now + s.accessTokenExpireMinutes * microsPerMinute) = true
  algorithm : ∃ a, Algorithm.ofName? s.algorithm = some a
  key : ∃ key, keyOfText s.secretKey = .ok key

theorem ascii_sign (a : Algorithm) (key : Bytes) (claims : Json) : (sign a key claims).Ascii :=
  Compact.ascii_assemble _ _ _

theorem read_dated {time : Int} (dated : Timestamp.isDated time = true) : Clock.read time = .ok time := if_pos dated

theorem read_fails {time : Int} {e : Failure} (h : Clock.read time = .error e) : ∃ f, e = .fault f := by
  unfold Clock.read at h
  split at h
  · cases h
  · cases h
    exact ⟨_, rfl⟩

theorem issue_of_issuable (h : Issuable s now) (user : Int) : ∃ token, issue s now user = .ok token ∧ token.Ascii := by
  obtain ⟨a, known⟩ := h.algorithm
  obtain ⟨key, hkey⟩ := h.key
  let lifetime := s.accessTokenExpireMinutes * microsPerMinute
  have start : Clock.second now = .ok (now / 1000000) := by
    rw [Clock.second, read_dated h.dated]
    rfl
  have expiry : Clock.after now lifetime = .ok (now + lifetime) := by
    rw [Clock.after, bind_of_ok (read_dated h.dated)]
    exact read_dated h.expiry
  let claims := newClaims s.tokenIssuer user (now / 1000000) ((now + lifetime) / microsPerSecond)
  refine ⟨sign a key claims, ?_, ascii_sign a key claims⟩
  unfold issue issueFor
  rw [bind_of_ok start, bind_of_ok expiry, known, hkey]

theorem issuable_of_issue {token : Text} (h : issue s now user = .ok token) : Issuable s now := by
  obtain ⟨dated, expiry, a, key, known, hkey, _⟩ := issueFor_ok h
  exact ⟨dated, expiry, ⟨a, known⟩, key, hkey⟩

/-- What keeps a token from being issued is a fault. -/
theorem issue_fails {e : Failure} (h : issue s now user = .error e) : ∃ f, e = .fault f := by
  unfold issue issueFor at h
  rcases bind_eq_error.mp h with h | ⟨_, _, h⟩
  · rw [second_eq] at h
    split at h
    · cases h
      exact ⟨_, rfl⟩
    · cases h
  rcases bind_eq_error.mp h with h | ⟨_, _, h⟩
  · rcases bind_eq_error.mp h with h | ⟨_, _, h⟩
    · exact read_fails h
    · exact read_fails h
  split at h
  · cases h
  · cases h
    exact ⟨_, rfl⟩

end Token

namespace Http

variable {s : Service} {m : Moment} {r : Request} {db : Database} {user : User}

/-- The response tells of a token that was issued for the user. -/
def Response.Grants (response : Response) (s : Settings) (now user : Int) : Prop :=
  ∃ token, Token.issue s now user = .ok token ∧
    response.Says 201 (IssuedToken.toJson ⟨token, Text.ofString "bearer"⟩)

/-- A header of ASCII characters does not keep a response from being made. -/
theorem Response.json_ascii (status : Int) {name value : Text} {v : Json} (printable : v.Printable)
    (ascii : (name.lower ++ value).Ascii) :
    ∃ response, Response.json status [(name, value)] v = .ok response ∧ response.Says status v := by
  have ⟨body, encoded⟩ : ∃ body, Utf8.encode? v.toText = some body :=
    ⟨_, Utf8.encode?_eq_some.mpr ⟨Json.encodable_toText printable, rfl⟩⟩
  have narrow : (name.lower ++ value).any (· ≥ 256) = false := by
    apply List.any_eq_false.mpr
    intro c hc
    rw [decide_eq_true_eq]
    exact Nat.not_le.mpr (Nat.lt_trans (ascii c hc) (by decide))
  unfold Response.json Response.ofText
  rw [encoded]
  simp only [List.map_cons, List.map_nil, List.any_cons, List.any_nil, narrow, Bool.or_false, Bool.false_eq_true, if_false]
  exact ⟨_, rfl, rfl, encoded⟩

theorem printable_issued {token : Text} (encodable : token.Encodable) :
    (IssuedToken.toJson ⟨token, Text.ofString "bearer"⟩).Printable := by
  have scheme : (Text.ofString "bearer").Encodable := by decide
  refine Json.printable_record ["access_token", "token_type"] rfl (by decide) ?_
  simp only [List.forall_mem_cons, List.not_mem_nil, false_implies, implies_true, and_true]
  exact ⟨.text encodable, .text scheme⟩

namespace Service

open Store

theorem prepare_register {task : Task} (h : s.prepare m .register r = .ok task) :
    ∃ request, task = .call (.register m.random request) := by
  rw [prepare_eq] at h
  obtain ⟨_, _, h⟩ := bind_eq_ok.mp h
  obtain ⟨_, _, h⟩ := bind_eq_ok.mp h
  obtain ⟨_, _, h⟩ := bind_eq_ok.mp h
  obtain ⟨_, _, h⟩ := bind_eq_ok.mp h
  obtain ⟨request, _, h⟩ := bind_eq_ok.mp h
  cases h
  exact ⟨request, rfl⟩

/-- What a registration does to the database is done before the token is issued. -/
theorem serve_register (changed : (s.serve m .register r db).2 ≠ db) : ∃ t request user, db = some t ∧
    Accounts.Enrols m.random request t user ∧
    s.serve m .register r db = (s.grant m.now .register user.account, some { t with users := t.users ++ [user] }) := by
  obtain ⟨call, answer, left, prepared, evaluated, committed⟩ := serve_database_changed changed
  obtain ⟨request, task⟩ := prepare_register prepared
  cases task
  have timed : s.settings.requestTimeoutSeconds.isPositive = true := by
    by_contra untimed
    rw [serve_untimed (Bool.eq_false_iff.mpr untimed) prepared] at changed
    exact changed rfl
  cases db with
  | none =>
    rw [committed] at changed
    exact absurd (Routine.eval_visible_none evaluated rfl) changed
  | some t =>
    obtain ⟨u, hu, user, enrols, rfl, rfl⟩ :=
      (Vault.enrolling_holds (.register m.random request) m.now).eval rfl rfl evaluated
    refine ⟨t, request, user, rfl, enrols, ?_⟩
    rw [serve_alone timed prepared evaluated, ← hu]
    rfl

/-- A registration of a new login is served, and adds its user. -/
theorem serve_enrols {t : Tables} {request : Registration} (timed : s.settings.requestTimeoutSeconds.isPositive = true)
    (prepared : s.prepare m .register r = .ok (.call (.register m.random request)))
    (enrols : Accounts.Enrols m.random request t user) :
    s.serve m .register r (some t) =
      (s.grant m.now .register user.account, some { t with users := t.users ++ [user] }) := by
  have alone := Vault.register_call_solo m.now enrols
  obtain ⟨left, evaluated, hleft⟩ := Routine.eval_of_solo (s := ⟨some t, none, false⟩) rfl rfl alone
  rw [serve_alone timed prepared evaluated, Session.committed, hleft]
  rfl

theorem grant_issuable (user : User) (h : Token.Issuable s.settings m.now) : ∃ response,
    s.grant m.now .register user.account = .ok response ∧ response.Grants s.settings m.now user.id := by
  obtain ⟨token, issued, ascii⟩ := Token.issue_of_issuable h user.id
  have printable : (IssuedToken.toJson ⟨token, Text.ofString "bearer"⟩).Printable :=
    printable_issued (Utf8.encodable_of_ascii ascii)
  have header : ((Text.ofString "authorization").lower ++ (Text.ofString "Bearer " ++ token)).Ascii := by
    have lead : ((Text.ofString "authorization").lower ++ Text.ofString "Bearer ").Ascii := by
      unfold Text.Ascii
      decide
    rw [← List.append_assoc]
    exact lead.append ascii
  obtain ⟨response, made, told⟩ := Response.json_ascii 201 printable header
  refine ⟨response, ?_, token, issued, told⟩
  unfold grant
  rw [show user.account.id = user.id from rfl, issued]
  exact mapError_eq_ok.mpr made

theorem grant_not_issuable (user : User) (h : ¬ Token.Issuable s.settings m.now) :
    ∃ f, s.grant m.now .register user.account = .error (.fault f) := by
  cases issued : Token.issue s.settings m.now user.id with
  | ok token => exact absurd (Token.issuable_of_issue issued) h
  | error e =>
    obtain ⟨f, rfl⟩ := Token.issue_fails issued
    refine ⟨f, ?_⟩
    unfold grant
    rw [show user.account.id = user.id from rfl, issued]
    rfl

end Service

namespace App

variable {app : App} {received : Request} {t : Tables} {request : Registration}
  (hroute : Route.find app.base r.method r.path = .served .register) (hreceived : app.received? r = some received)
include hroute hreceived

/-- Whatever becomes of the token, the database is the one that the registration has left. -/
theorem handle_granting
    (hserve : app.service.serve m .register received app.database = (app.service.grant m.now .register user.account, db)) :
    (app.handle m r).2.database = db ∧
      (Token.Issuable app.settings m.now → (app.handle m r).1.Grants app.settings m.now user.id) ∧
      (¬ Token.Issuable app.settings m.now → (app.handle m r).1 = Problem.crash) := by
  by_cases issuable : Token.Issuable app.settings m.now
  · obtain ⟨response, granted, token, issued, told⟩ := Service.grant_issuable (s := app.service) user issuable
    rw [granted] at hserve
    obtain ⟨set, handled⟩ := handle_served hroute hreceived hserve
    rw [handled]
    exact ⟨rfl, fun _ => ⟨token, issued, told.withHeaders set⟩, fun none => absurd issuable none⟩
  · obtain ⟨f, failed⟩ := Service.grant_not_issuable (s := app.service) user issuable
    rw [failed] at hserve
    have crashed : app.routed m received = (.error f, db) := routed_error ((received?_route hreceived).trans hroute) hserve
    rw [handle_crashed hroute hreceived crashed]
    exact ⟨rfl, fun some => absurd some issuable, fun _ => rfl⟩

end App

/-- A registration leaves the database as it was, or it adds its user. Then it is answered with a token, if one can be
issued; and if not, with a crash. The algorithms are those that sign with a shared secret. -/
theorem registration_all_or_nothing {app : App} {m : Moment} {r : Request}
    (hroute : Route.find app.base r.method r.path = .served .register) :
    (app.handle m r).2.database = app.database ∨
    ∃ t request user, app.database = some t ∧ Accounts.Enrols m.random request t user ∧
      (app.handle m r).2.database = some { t with users := t.users ++ [user] } ∧
      (Token.Issuable app.settings m.now → (app.handle m r).1.Grants app.settings m.now user.id) ∧
      (¬ Token.Issuable app.settings m.now → (app.handle m r).1 = Problem.crash) := by
  by_cases same : (app.handle m r).2.database = app.database
  · exact .inl same
  · obtain ⟨received, hreceived, hrouted⟩ := App.handle_database_changed same
    rw [hrouted, App.routed_served app ((App.received?_route hreceived).trans hroute)] at same
    obtain ⟨t, request, user, stored, enrols, hserve⟩ := Service.serve_register same
    exact .inr ⟨t, request, user, stored, enrols, App.handle_granting hroute hreceived hserve⟩

def newApp (minutes : Int) : App :=
  ⟨⟨{ secretKey := Text.ofString "k", accessTokenExpireMinutes := minutes }, none⟩, [.text (Text.ofString "/api")], some {}⟩

def sampleRegister : Request :=
  { method := Text.ofString "POST"
    path := Text.ofString "/api/auth/register"
    headers := [(Text.ofString "content-type", Text.ofString "application/json")]
    messages := [.body (Text.ofString <|
      "\x7b\"login\":\"a\",\"master_password\":\"p\",\"encryption_salt\":\"s\"\x7d").asciiBytes false] }

theorem sample_serve (minutes : Int) : ∃ user : User,
    (newApp minutes).service.serve ⟨5, [], []⟩ .register sampleRegister (some {}) =
      ((newApp minutes).service.grant 5 .register user.account, some { users := [user] }) := by
  obtain ⟨user, enrols, _⟩ := Vault.sample_registered
  have prepared : (newApp minutes).service.prepare ⟨5, [], []⟩ .register sampleRegister =
      .ok (.call (.register [] Vault.sampleRegistration)) := rfl
  exact ⟨user, Service.serve_enrols rfl prepared enrols⟩

theorem sample_route (minutes : Int) :
    Route.find (newApp minutes).base sampleRegister.method sampleRegister.path = .served .register := by
  have base : (newApp minutes).base = [.text (Text.ofString "/api")] := rfl
  rw [base]
  decide

theorem sample_registration_all_or_nothing :
    Route.find (newApp 60).base sampleRegister.method sampleRegister.path = .served .register ∧
    Token.Issuable (newApp 60).settings 5 ∧
    ∃ user, ((newApp 60).handle ⟨5, [], []⟩ sampleRegister).2.database = some { users := [user] } ∧
      ((newApp 60).handle ⟨5, [], []⟩ sampleRegister).1.Grants (newApp 60).settings 5 user.id := by
  have issuable : Token.Issuable (newApp 60).settings 5 := ⟨by decide, by decide, ⟨.hs256, by decide⟩, [107], by decide⟩
  obtain ⟨user, hserve⟩ := sample_serve 60
  have stored := (App.handle_granting (m := ⟨5, [], []⟩) (sample_route 60) rfl hserve).1
  refine ⟨sample_route 60, issuable, user, stored, ?_⟩
  rcases registration_all_or_nothing (m := ⟨5, [], []⟩) (sample_route 60) with
    same | ⟨t, _, other, found, _, left, grants, _⟩
  · rw [stored] at same
    cases same
  · cases found
    rw [stored] at left
    cases left
    exact grants issuable

/-- With a lifetime beyond all dates the user is there after a crash. -/
theorem registration_without_answer :
    ((newApp 1000000000000).handle ⟨5, [], []⟩ sampleRegister).1 = Problem.crash ∧
    ((newApp 1000000000000).handle ⟨5, [], []⟩ sampleRegister).2.database ≠ (newApp 1000000000000).database := by
  have unissuable : ¬ Token.Issuable (newApp 1000000000000).settings 5 := by
    intro issuable
    have expiry := issuable.expiry
    revert expiry
    decide
  obtain ⟨user, hserve⟩ := sample_serve 1000000000000
  obtain ⟨stored, _, crashed⟩ := App.handle_granting (m := ⟨5, [], []⟩) (sample_route 1000000000000) rfl hserve
  refine ⟨crashed unissuable, ?_⟩
  rw [stored]
  exact nofun

end Http

end Strongbox
