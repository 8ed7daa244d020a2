import Strongbox.Accounts
import Strongbox.Proofs.Password
import Strongbox.Proofs.Store.Solo

/-!
# What the calls about accounts do

A registration adds one user, or nothing. Which one, is told by the request and by the tables that it finds at its
write, whatever has happened since it looked for the login. The other two calls only read.
-/

namespace Strongbox

structure Registration.Given (request : Registration) : Prop where
  login : request.login ≠ []
  password : request.password ≠ []
  salt : request.salt ≠ []

theorem Registration.given_iff {request : Registration} :
    (request.login.isEmpty || request.password.isEmpty || request.salt.isEmpty) = false ↔ request.Given := by
  simp only [Bool.or_eq_false_iff, List.isEmpty_eq_false_iff]
  constructor
  · rintro ⟨⟨login, password⟩, salt⟩
    exact ⟨login, password, salt⟩
  · rintro ⟨login, password, salt⟩
    exact ⟨⟨login, password⟩, salt⟩

structure Credentials.Given (request : Credentials) : Prop where
  login : request.login ≠ []
  password : request.password ≠ []

theorem Credentials.given_iff {request : Credentials} :
    (request.login.isEmpty || request.password.isEmpty) = false ↔ request.Given := by
  simp only [Bool.or_eq_false_iff, List.isEmpty_eq_false_iff]
  constructor
  · rintro ⟨login, password⟩
    exact ⟨login, password⟩
  · rintro ⟨login, password⟩
    exact ⟨login, password⟩

theorem Tables.insertUser?_eq_some {t u : Tables} {login passwordHash salt : Text} {user : User} :
    t.insertUser? login passwordHash salt = some (user, u) ↔
      t.userOfLogin? login = none ∧ user = ⟨nextId (t.users.map (·.id)), login, passwordHash, salt⟩ ∧
        u = { t with users := t.users ++ [user] } := by
  unfold insertUser?
  cases t.userOfLogin? login with
  | none =>
    simp only [Option.isSome_none, Bool.false_eq_true, if_false, Option.some.injEq, Prod.mk.injEq, true_and]
    constructor
    · rintro ⟨rfl, rfl⟩
      exact ⟨rfl, rfl⟩
    · rintro ⟨rfl, rfl⟩
      exact ⟨rfl, rfl⟩
  | some other => simp

namespace Accounts

open Store

variable {t u : Tables} {random : Bytes} {user : User}

structure Enrols (random : Bytes) (request : Registration) (t : Tables) (user : User) : Prop where
  given : request.Given
  fresh : t.userOfLogin? request.login = none
  id : user.id = Tables.nextId (t.users.map (·.id))
  login : user.login = request.login
  salt : user.salt = request.salt
  hashed : Password.hash random request.password = .ok user.passwordHash
  encodable : request.login.Encodable ∧ request.salt.Encodable

theorem insertUser_bound {login hash salt : Text} :
    (do bindText login; bindText hash; bindText salt : Except Fault Unit) = .ok () ↔
      login.Encodable ∧ hash.Encodable ∧ salt.Encodable := by
  constructor
  · intro bound
    obtain ⟨_, login, bound⟩ := bind_eq_ok.mp bound
    obtain ⟨_, hash, salt⟩ := bind_eq_ok.mp bound
    exact ⟨bindText_eq_ok.mp login, bindText_eq_ok.mp hash, bindText_eq_ok.mp salt⟩
  · rintro ⟨login, hash, salt⟩
    rw [bindText_eq_ok.mpr login, bindText_eq_ok.mpr hash, bindText_eq_ok.mpr salt]
    rfl

theorem register_landsAs (random : Bytes) (request : Registration) :
    (register random request).LandsAs fun account t u =>
      ∃ user, Enrols random request t user ∧ account = user.account ∧ u = { t with users := t.users ++ [user] } := by
  unfold register
  split
  · trivial
  · rename_i given
    refine Routine.landsAs_ofOutcome fun hash hashed => Routine.landsAs_reading fun t => ?_
    cases t.userOfLogin? request.login with
    | some user => trivial
    | none =>
      refine Routine.landsAs_of_delivers rfl rfl fun t account s' hx => ?_
      obtain ⟨inserted, s₂, hi, hend⟩ := Routine.eval_bind_ok.mp hx
      rw [Routine.eval_statement, insertUser, execute_forObjects] at hi
      obtain ⟨t', hs', bound, _, hr, rfl⟩ := execute_writing_ok.mp hi
      cases hs'
      cases hins : t.insertUser? request.login hash request.salt with
      | none =>
        rw [hins] at hr
        cases hr
        cases hend
      | some done =>
        obtain ⟨user, u⟩ := done
        rw [hins] at hr
        cases hr
        cases hend
        obtain ⟨fresh, rfl, rfl⟩ := Tables.insertUser?_eq_some.mp hins
        obtain ⟨login, _, salt⟩ := insertUser_bound.mp bound
        have given := Registration.given_iff.mp (Bool.not_eq_true _ ▸ given)
        exact ⟨_, by rw [hins]; rfl, _, ⟨given, fresh, rfl, rfl, rfl, hashed, login, salt⟩, rfl, rfl⟩

theorem register_solo {request : Registration} (h : Enrols random request t user) :
    (register random request).solo t = .ok (user.account, { t with users := t.users ++ [user] }) := by
  have row : user = ⟨Tables.nextId (t.users.map (·.id)), request.login, user.passwordHash, request.salt⟩ := by
    rw [← h.id, ← h.login, ← h.salt]
  have inserted : t.insertUser? request.login user.passwordHash request.salt =
      some (user, { t with users := t.users ++ [user] }) := Tables.insertUser?_eq_some.mpr ⟨h.fresh, row, rfl⟩
  have looked : (Routine.statement (selectLogin request.login)).solo t = .ok (t.userOfLogin? request.login, t) :=
    Routine.solo_reading (bindText_eq_ok.mpr h.encodable.1)
  have written : (Routine.statement (insertUser request.login user.passwordHash request.salt)).solo t =
      .ok (some user, { t with users := t.users ++ [user] }) := by
    have bound := insertUser_bound.mpr ⟨h.encodable.1, Password.hash_encodable h.hashed, h.encodable.2⟩
    rw [insertUser, Routine.solo_forObjects, Routine.solo_writing bound, inserted]
  unfold register
  rw [Registration.given_iff.mpr h.given, if_neg Bool.false_ne_true, h.hashed]
  apply (Routine.solo_bind_of_ok rfl).trans
  apply (Routine.solo_bind_of_ok looked).trans
  rw [h.fresh]
  exact Routine.solo_bind_of_ok written

def settle (request : Credentials) : Option User → Routine Account
  | none => refuse request.login
  | some user => do
    let valid ← Routine.ofOutcome (Password.verify request.password user.passwordHash)
    if valid then pure user.account else refuse request.login

theorem login_eq {request : Credentials} (given : request.Given) :
    login request = Routine.statement (selectLogin request.login) >>= settle request := by
  unfold login
  rw [Credentials.given_iff.mpr given, if_neg Bool.false_ne_true]
  rfl

theorem settle_wrong {request : Credentials} {found : Option User}
    (wrong : ∀ user, found = some user → Password.verify request.password user.passwordHash = .ok false) :
    settle request found = refuse request.login := by
  cases found with
  | none => rfl
  | some user =>
    rw [settle, wrong user rfl]
    rfl

/-- A login that nobody disturbs comes down to the verification of the password, if there is such an account. -/
theorem login_solo {request : Credentials} (given : request.Given) (encodable : request.login.Encodable) :
    (login request).solo t = (settle request (t.userOfLogin? request.login)).solo t := by
  rw [login_eq given]
  exact Routine.solo_bind_of_ok (Routine.solo_reading (bindText_eq_ok.mpr encodable))

theorem settle_solo (request : Credentials) (user : User) : (settle request (some user)).solo t =
    Password.verify request.password user.passwordHash >>= fun valid =>
      if valid then .ok (user.account, t) else Outcome.reject (.rejected .badCredentials) := by
  apply (Routine.solo_bind _ _ t).trans
  cases Password.verify request.password user.passwordHash with
  | error f => rfl
  | ok valid => cases valid <;> rfl

/-- A login is refused only because of a wrong password, if there is such an account. -/
theorem settle_refused_iff {request : Credentials} :
    (settle request (some user)).solo t = Outcome.reject (.rejected .badCredentials) ↔
      Password.verify request.password user.passwordHash = .ok false := by
  rw [settle_solo]
  cases verified : Password.verify request.password user.passwordHash with
  | error e =>
    obtain ⟨f, rfl⟩ := Password.verify_fails verified
    exact ⟨nofun, nofun⟩
  | ok valid =>
    cases valid with
    | false => exact ⟨fun _ => rfl, fun _ => rfl⟩
    | true => exact ⟨nofun, nofun⟩

theorem params_solo {id : Int} (owned : Guard.ownerOf id = .ok id) (bound : bindInt id = .ok ())
    (known : t.userOfId? id = some user) : (params id).solo t = .ok (user.account, t) := by
  have looked : (Routine.statement (selectUser id)).solo t = .ok (t.userOfId? id, t) := by
    rw [selectUser, Routine.solo_forObjects, Routine.solo_reading bound]
  unfold params
  rw [owned]
  apply (Routine.solo_bind_of_ok looked).trans
  rw [known]
  rfl

section Reads

variable {P : Tables → Tables → Prop} (same : ∀ t, P t t)
include same

theorem params_lands (caller : Int) : (params caller).Lands P := by
  refine Routine.landsAs_ofOutcome fun _ _ => Routine.landsAs_reading fun t => ?_
  cases t.userOfId? _ with
  | none => trivial
  | some user => exact same

theorem login_lands (request : Credentials) : (login request).Lands P := by
  unfold login
  split
  · trivial
  · refine Routine.landsAs_reading fun t => ?_
    cases t.userOfLogin? request.login with
    | none => trivial
    | some user =>
      refine Routine.landsAs_ofOutcome fun valid _ => ?_
      cases valid with
      | false => trivial
      | true => exact same

end Reads

end Accounts

end Strongbox
