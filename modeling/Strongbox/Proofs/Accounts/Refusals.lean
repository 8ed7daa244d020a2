import Strongbox.Proofs.Accounts.Stability
import Strongbox.Proofs.Http.Layers
import Strongbox.Proofs.Store.Likeness

/-!
# Refused logins

A login of nobody and a login with a wrong password are refused alike, as far as the password is one that can be
hashed. One that cannot is only looked at if there is an account, and makes the verification fail.
-/

namespace Strongbox

/-- Outcomes without results differ only if their failures do. -/
theorem Outcome.Like.eq {x y : Except ε α} (h : Outcome.Like (fun _ _ => False) x y) : x = y := by
  cases h with
  | error e => rfl
  | ok h => exact h.elim

namespace Vault

open Store Accounts

variable {t u : Tables} {c : Credentials} {user : User} {random : Bytes} {request : Registration} {answer : Answer}

/-- Whoever has the login, the password is not theirs. -/
def Wrong (c : Credentials) (t : Tables) : Prop :=
  ∀ user, t.userOfLogin? c.login = some user → Password.verify c.password user.passwordHash = .ok false

theorem wrong_of_unknown (h : ∀ user ∈ t.users, user.login ≠ c.login) : Wrong c t := by
  intro user known
  rw [userOfLogin?_eq_none.mpr h] at known
  cases known

/-- Wherever a login is refused it takes the same steps. -/
theorem login_like (c : Credentials) :
    (login c).Like (fun t u => Wrong c t ∧ Wrong c u) (fun _ _ => False) (login c) := by
  by_cases given : c.Given
  · rw [login_eq given]
    let wrong (found : Option User) : Prop :=
      ∀ user, found = some user → Password.verify c.password user.passwordHash = .ok false
    have looked : (selectLogin c.login).Keeps (fun t u => Wrong c t ∧ Wrong c u) fun a b => wrong a ∧ wrong b :=
      keeps_reading fun _ _ same => same
    refine Routine.like_bind (Routine.like_statement looked) ?_
    rintro a b ⟨ha, hb⟩
    rw [settle_wrong ha, settle_wrong hb]
    exact .note _ _ (Routine.like_reject _)
  · have blank : (c.login.isEmpty || c.password.isEmpty) = true :=
      eq_true_of_ne_false fun filled => given (Credentials.given_iff.mp filled)
    unfold login
    rw [blank, if_pos rfl]
    exact Routine.like_reject _

theorem call_like (c : Credentials) (now : Int) :
    ((Call.login c).routine now).Like (fun t u => Wrong c t ∧ Wrong c u) (fun _ _ => False)
      ((Call.login c).routine now) :=
  Routine.like_bind (login_like c) fun _ _ none => none.elim

theorem runCall_alike {around : Surroundings ρ} (alone : around.Alone) (ht : Wrong c t) (hu : Wrong c u) (timeout : Binary64)
    (locked : Bool) (now : Int) :
    (runCall around timeout { database := some t, locked } ((Call.login c).routine now)).result =
      (runCall around timeout { database := some u, locked } ((Call.login c).routine now)).result := by
  have start : Session.Like (fun t u => Wrong c t ∧ Wrong c u) { database := some t, locked }
      { database := some u, locked } := ⟨.some ⟨ht, hu⟩, .none, rfl⟩
  exact ((call_like c now).runCall alone start).1.eq

/-- Calls that are refused over both tables cannot be told apart, whatever goes wrong around them. -/
theorem ended_alike {x : Visit} (hx : x.call = .login c) (ht : Wrong c t) (hu : Wrong c u) :
    (x.ended (some t)).result = (x.ended (some u)).result := by
  unfold Visit.ended
  rw [hx]
  exact runCall_alike (breaking_alone _ _) ht hu x.timeout x.locked x.now

theorem refused_of_unknown {x : Visit} (calm : x.Calm) (hx : x.call = .login c) (given : c.Given)
    (encodable : c.login.Encodable) (unknown : ∀ user ∈ t.users, user.login ≠ c.login) :
    (x.ended (some t)).result = Outcome.reject (.rejected .badCredentials) := by
  apply (calm.ended_solo_error ?_).1
  rw [hx, login_call_solo t x.now given encodable, userOfLogin?_eq_none.mpr unknown]
  rfl

/-- A calm visit with the login of a user is refused only if the password is a wrong one. -/
theorem wrong_of_refused {x : Visit} (calm : x.Calm) (hx : x.call = .login c) (given : c.Given)
    (encodable : c.login.Encodable) (known : u.userOfLogin? c.login = some user)
    (refused : (x.ended (some u)).result = Outcome.reject (.rejected .badCredentials)) :
    Password.verify c.password user.passwordHash = .ok false := by
  apply (settle_refused_iff (t := u)).mp
  have alone := login_call_solo u x.now given encodable
  rw [← hx, known] at alone
  cases settled : (settle c (some user)).solo u with
  | error e =>
    rw [settled] at alone
    rw [(calm.ended_solo_error alone).1] at refused
    cases refused
    rfl
  | ok p =>
    rw [settled] at alone
    rw [(calm.ended_solo alone).1] at refused
    cases refused

end Vault

namespace Http

open Vault

variable {app : App} {m : Moment} {r : Request} {c : Credentials} {t u : Tables}

structure App.Carries (app : App) (m : Moment) (r : Request) (c : Credentials) : Prop where
  route : Route.find app.base r.method r.path = .served .login
  call : ∀ received, app.received? r = some received → app.service.prepare m .login received = .ok (.call (.login c))

theorem App.Carries.alike (h : app.Carries m r c) (ht : Wrong c t) (hu : Wrong c u) :
    (App.handle { app with database := some t } m r).1 = (App.handle { app with database := some u } m r).1 := by
  apply handle_alike
  intro received hreceived
  have same : (app.service.serve m .login received (some t)).1 = (app.service.serve m .login received (some u)).1 := by
    simp only [Service.serve, h.call received hreceived, Service.run]
    rw [runCall_alike Store.undisturbed_alone ht hu]
  simp only [routed, received?_route hreceived, h.route, same]

def sampleLogin : Request :=
  { method := Text.ofString "POST"
    path := Text.ofString "/api/auth/login"
    headers := [(Text.ofString "content-type", Text.ofString "application/json")]
    messages := [.body (Text.ofString "\x7b\"login\":\"a\",\"master_password\":\"q\"\x7d").asciiBytes false] }

theorem carries_sampleLogin (base : app.base = [.text (Text.ofString "/api")]) : app.Carries m sampleLogin ⟨[97], [113]⟩ where
  route := by
    rw [base]
    decide
  call := by
    intro received hreceived
    obtain rfl : sampleLogin = received := Option.some.inj hreceived
    rfl

end Http

namespace Vault

open Accounts

/-- A login that nobody has, and one that was registered, are told apart exactly by passwords that cannot be hashed, and
by those with the same key as the registered one. With any other password both are refused alike, as calls and as
requests. -/
theorem refusals_alike {t u : Tables} {c : Credentials} {random : Bytes} {request : Registration} {answer : Answer}
    (given : c.Given) (unknown : ∀ user ∈ t.users, user.login ≠ c.login) (registered : Registered u random request answer)
    (login : request.login = c.login) (salted : random.length ≤ 1024) :
    ((∀ x : Visit, x.call = .login c → (x.ended (some t)).result = (x.ended (some u)).result) ↔
      Password.Hashable c.password ∧ Password.key? random c.password ≠ Password.key? random request.password) ∧
    (Password.Hashable c.password → Password.key? random c.password ≠ Password.key? random request.password →
      ∀ (app : Http.App) (m : Http.Moment) (r : Http.Request), app.Carries m r c →
        (Http.App.handle { app with database := some t } m r).1 = (Http.App.handle { app with database := some u } m r).1) := by
  obtain ⟨s, user, enrols, found, _⟩ := registered.enrolled
  have known : u.userOfLogin? c.login = some user := by
    rw [← login, ← enrols.login]
    exact found.login
  have unknown_wrong := wrong_of_unknown unknown
  have known_wrong (fits : Password.Hashable c.password)
      (differs : Password.key? random c.password ≠ Password.key? random request.password) : Wrong c u := by
    intro other ho
    cases known.symm.trans ho
    exact (Password.verify_wrong_iff enrols.hashed salted).mpr ⟨fits, differs⟩
  refine ⟨⟨?_, ?_⟩, ?_⟩
  · intro alike
    have calm := Sync.sampleVisit_calm (.login c)
    have encodable := enrols.encodable.1
    rw [login] at encodable
    have refused := refused_of_unknown calm rfl given encodable unknown
    rw [alike _ rfl] at refused
    exact (Password.verify_wrong_iff enrols.hashed salted).mp (wrong_of_refused calm rfl given encodable known refused)
  · rintro ⟨fits, differs⟩ x hx
    exact ended_alike hx unknown_wrong (known_wrong fits differs)
  · intro fits differs app m r carries
    exact carries.alike unknown_wrong (known_wrong fits differs)

def endlessPassword : Text := List.replicate (Password.lengthLimit + 1) 97

theorem length_endlessPassword : endlessPassword.length = Password.lengthLimit + 1 := List.length_replicate

theorem endless_given (login : Text) (given : login ≠ []) : Credentials.Given ⟨login, endlessPassword⟩ := by
  refine ⟨given, fun none => ?_⟩
  have long := length_endlessPassword
  rw [show endlessPassword = [] from none] at long
  cases long

theorem sample_refusals_alike : ∃ u answer, Registered u [] sampleRegistration answer ∧
    (Password.key? [] [113] ≠ Password.key? [] [112] →
      (∀ x : Visit, x.call = .login ⟨[97], [113]⟩ → (x.ended (some {})).result = (x.ended (some u)).result) ∧
      ∀ (app : Http.App) (m : Http.Moment), app.base = [.text (Text.ofString "/api")] →
        (Http.App.handle { app with database := some {} } m Http.sampleLogin).1 =
          (Http.App.handle { app with database := some u } m Http.sampleLogin).1) ∧
    ¬ ∀ x : Visit, x.call = .login ⟨[97], endlessPassword⟩ →
      (x.ended (some {})).result = (x.ended (some u)).result := by
  obtain ⟨user, _, registered⟩ := sample_registered
  refine ⟨_, _, registered, ?_, ?_⟩
  · intro differs
    have fits : Password.Hashable [113] := ⟨by decide, by decide⟩
    obtain ⟨calls, requests⟩ :=
      refusals_alike (t := {}) (c := ⟨[97], [113]⟩) ⟨nofun, nofun⟩ nofun registered rfl (by decide)
    exact ⟨calls.mpr ⟨fits, differs⟩, fun app m base => requests fits differs app m _ (Http.carries_sampleLogin base)⟩
  · intro alike
    have given := endless_given [97] nofun
    have fits := ((refusals_alike (t := {}) given nofun registered rfl (by decide)).1.mp alike).1
    exact Nat.not_succ_le_self _ (length_endlessPassword ▸ fits.short)

/-- The password of one character too many fails only where there is an account. -/
theorem endless_password_tells_of_account :
    let login : Call := .login ⟨sampleRegistration.login, endlessPassword⟩
    endlessPassword ≠ sampleRegistration.password ∧
    ∃ u answer, Registered u [] sampleRegistration answer ∧
      ((Sync.sampleVisit login).ended (some {})).result = Outcome.reject (.rejected .badCredentials) ∧
      ((Sync.sampleVisit login).ended (some u)).result = Outcome.fail .longPassword := by
  intro login
  obtain ⟨user, enrols, registered⟩ := sample_registered
  have calm := Sync.sampleVisit_calm login
  have given := endless_given sampleRegistration.login nofun
  have other : endlessPassword ≠ sampleRegistration.password := by
    intro same
    have long := length_endlessPassword
    rw [same] at long
    cases long
  have long : Password.verify endlessPassword user.passwordHash = Outcome.fail .longPassword := by
    rw [Password.verify_hash enrols.hashed (by decide), length_endlessPassword, if_pos (Nat.lt_succ_self _)]
  have known : Tables.userOfLogin? { users := [user] } sampleRegistration.login = some user := by
    have found := (finds_enrolled (u := { users := [user] }) enrols rfl).login
    rwa [enrols.login] at found
  refine ⟨other, _, _, registered, refused_of_unknown calm rfl given enrols.encodable.1 nofun, ?_⟩
  apply (calm.ended_solo_error ?_).1
  have alone := login_call_solo { users := [user] } 2 given enrols.encodable.1
  rw [known, settle_solo, long] at alone
  exact alone

end Vault

end Strongbox
