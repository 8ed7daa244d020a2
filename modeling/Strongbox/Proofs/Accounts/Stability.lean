import Strongbox.Proofs.Vault.Readings

/-!
# Accounts in the long run

Whatever calls are made, and however they are interleaved, users are only ever added, each under a new login. So an
account that was registered answers to its login and its password for good.
-/

namespace Strongbox

structure Registration.Storable (request : Registration) : Prop where
  login : request.login.Encodable
  salt : request.salt.Encodable
  password : Password.Hashable request.password

namespace Vault

open Store Accounts

variable {t u : Tables} {user : User} {random : Bytes} {request : Registration} {answer : Answer} {now : Int}

/-- What a call that ends well does to the users. -/
def Enrolling : Conduct
  | .register random request, _, answer, t, u =>
    ∃ user, Enrols random request t user ∧ answer = .account user.account ∧ u = { t with users := t.users ++ [user] }
  | _, _, _, t, u => u.users = t.users

def SameUsers (t u : Tables) : Prop := u.users = t.users

theorem Batch.keeps_users (caller now : Int) (batch : Batch) :
    ((batch.call caller).routine now).Lands SameUsers := by
  apply Routine.landsAs_mono ?_ (batch.lands caller now)
  rintro _ t u ⟨_, _, rfl⟩
  rfl

theorem Call.keeps_users {call : Call} (h : ∀ random request, call ≠ .register random request) :
    (call.routine now).Lands SameUsers := by
  have same : ∀ t, SameUsers t t := fun _ => rfl
  by_cases reads : call.Reads
  · exact reads.lands same
  · cases call with
    | register random request => exact absurd rfl (h random request)
    | upload caller request => exact Batch.keeps_users caller now (.upload request)
    | update caller request => exact Batch.keeps_users caller now (.update request)
    | delete caller request => exact Batch.keeps_users caller now (.delete request)
    | login request => exact Routine.landsAs_map _ (login_lands same request)
    | params caller => exact Routine.landsAs_map _ (params_lands same caller)
    | _ => exact absurd trivial reads

theorem enrolling_holds : Enrolling.Holds := by
  intro call now
  cases call with
  | register random request =>
    apply Routine.landsAs_map
    apply Routine.landsAs_mono ?_ (register_landsAs random request)
    rintro account t u ⟨user, enrols, rfl, rfl⟩
    exact ⟨user, enrols, rfl, rfl⟩
  | _ => exact Call.keeps_users fun _ _ other => by cases other

/-- Users are only ever added, each as a registration says. -/
theorem enrolling_users {call : Call} (h : Enrolling call now answer t u) :
    u.users = t.users ∨ ∃ random request user, Enrols random request t user ∧ u.users = t.users ++ [user] := by
  cases call with
  | register random request =>
    obtain ⟨user, enrols, _, rfl⟩ := h
    exact .inr ⟨random, request, user, enrols, rfl⟩
  | _ => exact .inl h

theorem userOfLogin?_eq_none {login : Text} : t.userOfLogin? login = none ↔ ∀ user ∈ t.users, user.login ≠ login := by
  rw [Tables.userOfLogin?, List.find?_eq_none]
  simp only [beq_iff_eq, ne_eq]

theorem nodup_logins (h : Enrols random request t user) (single : (t.users.map (·.login)).Nodup)
    (added : u.users = t.users ++ [user]) : (u.users.map (·.login)).Nodup := by
  rw [added, List.map_append, List.nodup_append]
  refine ⟨single, by simp, ?_⟩
  intro login hl other ho
  obtain ⟨older, holder, rfl⟩ := List.mem_map.mp hl
  obtain rfl : other = user.login := List.mem_singleton.mp ho
  rw [h.login]
  exact userOfLogin?_eq_none.mp h.fresh older holder

structure Finds (t : Tables) (user : User) : Prop where
  login : t.userOfLogin? user.login = some user
  id : t.userOfId? user.id = some user

theorem Finds.append {more : List User} (h : Finds t user) (added : u.users = t.users ++ more) : Finds u user := by
  constructor
  · rw [Tables.userOfLogin?, added, List.find?_append]
    exact Option.or_eq_some_iff.mpr (.inl h.login)
  · rw [Tables.userOfId?, added, List.find?_append]
    exact Option.or_eq_some_iff.mpr (.inl h.id)

theorem finds_enrolled (h : Enrols random request t user) (added : u.users = t.users ++ [user]) : Finds u user := by
  have unnumbered : t.userOfId? user.id = none := by
    rw [Tables.userOfId?, List.find?_eq_none]
    intro older ho
    have smaller : older.id < Tables.nextId (t.users.map (·.id)) := Tables.lt_nextId (List.mem_map_of_mem ho)
    rw [h.id, beq_iff_eq]
    exact Int.ne_of_lt smaller
  have fresh := h.fresh
  rw [← h.login] at fresh
  constructor
  · rw [Tables.userOfLogin?, added, List.find?_append]
    exact Option.or_eq_some_iff.mpr (.inr ⟨fresh, by simp⟩)
  · rw [Tables.userOfId?, added, List.find?_append]
    exact Option.or_eq_some_iff.mpr (.inr ⟨unnumbered, by simp⟩)

/-- Whatever is committed, no two users have the same login. -/
theorem logins_kept {call : Call} (single : (t.users.map (·.login)).Nodup) (h : Enrolling call now answer t u) :
    (u.users.map (·.login)).Nodup := by
  rcases enrolling_users h with same | ⟨_, _, user, enrols, added⟩
  · rwa [same]
  · exact nodup_logins enrols single added

/-- Whatever is committed, a user is found as before. -/
theorem finds_kept {call : Call} (found : Finds t user) (h : Enrolling call now answer t u) : Finds u user := by
  rcases enrolling_users h with same | ⟨_, _, _, _, added⟩
  · exact found.append (by rw [same, List.append_nil])
  · exact found.append added

/-- On the way to these tables, from none, the registration was accepted with this answer. -/
def Registered (t : Tables) (random : Bytes) (request : Registration) (answer : Answer) : Prop :=
  ∃ events id now later,
    (World.run { database := some {} } events).flights id = some ⟨.register random request, now, .finish (.ok answer)⟩ ∧
      (((World.run { database := some {} } events).next (.advance id)).run later).database = some t

theorem Registered.enrolled (h : Registered t random request answer) :
    ∃ s user, Enrols random request s user ∧ Finds t user ∧ answer = .account user.account := by
  obtain ⟨events, id, now, later, flight, database⟩ := h
  have sound := World.sound_run enrolling_holds (World.sound_initial Enrolling {}) events
  obtain ⟨s, u, _, committed, user, enrols, rfl, rfl⟩ := World.conducted_of_finished sound flight rfl
  obtain ⟨stored, _⟩ := World.next_finished flight rfl
  have found := finds_enrolled enrols (u := { s with users := s.users ++ [user] }) rfl
  obtain ⟨v, hv, kept⟩ := World.invariant_run (I := fun _ v => Finds v user) enrolling_holds
    (fun _ _ _ _ _ _ => finds_kept) ((World.step_next _ (.advance id)).sound enrolling_holds sound) (stored.trans committed)
    found later
  cases database.symm.trans hv
  exact ⟨s, user, enrols, kept, rfl⟩

/-- Every registration that was accepted in a run is one that its tables know of. -/
theorem registered_of_accepted {events : List Event} (ht : (World.run { database := some {} } events).database = some t)
    (accepted : (.register random request, now) ∈ (World.run { database := some {} } events).accepted) :
    ∃ answer, Registered t random request answer := by
  rcases World.accepted_run_cases accepted with none | ⟨before, id, answer, later, rfl, flight⟩
  · cases none
  · rw [World.run_append] at ht
    exact ⟨answer, before, id, now, later, flight, ht⟩

theorem exists_enrolled (storable : request.Storable) (given : request.Given)
    (fresh : ∀ user ∈ t.users, user.login ≠ request.login) (random : Bytes) : ∃ user, Enrols random request t user := by
  obtain ⟨hashed, hash⟩ := Password.hash_of_hashable storable.password random
  exact ⟨⟨Tables.nextId (t.users.map (·.id)), request.login, hashed, request.salt⟩, given, userOfLogin?_eq_none.mpr fresh,
    rfl, rfl, rfl, hash, storable.login, storable.salt⟩

theorem register_call_solo (now : Int) (h : Enrols random request t user) : ((Call.register random request).routine now).solo t =
    .ok (.account user.account, { t with users := t.users ++ [user] }) := by
  rw [Call.routine, Routine.solo_map, register_solo h]
  rfl

/-- In every world a registration can be accepted that adds a user to its tables. -/
theorem registered_of_enrols (events : List Event) (ht : (World.run { database := some {} } events).database = some t)
    (h : Enrols random request t user) :
    Registered { t with users := t.users ++ [user] } random request (.account user.account) := by
  obtain ⟨left, hx, hleft⟩ := Routine.eval_of_solo (s := { database := some t }) rfl rfl (register_call_solo 0 h)
  rw [← ht] at hx
  obtain ⟨more, id, flight, database, _⟩ := World.run_call hx
  rw [← World.run_append] at flight database
  exact ⟨events ++ more, id, 0, [], flight, database.trans hleft⟩

/-- A registration that the store can hold is accepted exactly if its fields are filled in and its login is new. -/
theorem register_accepted_iff {x : Visit} (calm : x.Calm) (hx : x.call = .register random request)
    (storable : request.Storable) : (∃ answer, (x.ended (some t)).result = .ok answer) ↔
      request.Given ∧ ∀ user ∈ t.users, user.login ≠ request.login := by
  constructor
  · rintro ⟨answer, accepted⟩
    obtain ⟨u, _, conducted⟩ := x.ended_answers (enrolling_holds x.call x.now) accepted
    rw [hx] at conducted
    obtain ⟨user, enrols, _, _⟩ := conducted
    exact ⟨enrols.given, userOfLogin?_eq_none.mp enrols.fresh⟩
  · rintro ⟨given, fresh⟩
    obtain ⟨user, enrols⟩ := exists_enrolled storable given fresh random
    have alone := register_call_solo x.now enrols
    rw [← hx] at alone
    exact ⟨_, (calm.ended_solo alone).1⟩

section Answers

variable {s : Tables}

theorem login_call_solo (t : Tables) (now : Int) {c : Credentials} (given : c.Given) (encodable : c.login.Encodable) :
    ((Call.login c).routine now).solo t =
      ((settle c (t.userOfLogin? c.login)).solo t).map fun p => (.account p.1, p.2) := by
  rw [Call.routine, Routine.solo_map, login_solo given encodable]

theorem login_answers (h : Enrols random request s user) (salted : random.length ≤ 1024) (found : Finds t user) :
    Answers t (.login ⟨request.login, request.password⟩) (.account user.account) := by
  apply answers_of_solo
  intro now
  have known := found.login
  rw [h.login] at known
  rw [login_call_solo t now ⟨h.given.login, h.given.password⟩ h.encodable.1, known, settle_solo,
    Password.verify_own h.hashed salted]
  rfl

theorem params_answers (hid : IsUserId user.id) (found : Finds t user) :
    Answers t (.params user.id) (.account user.account) := by
  apply answers_of_solo
  intro now
  rw [Call.routine, Routine.solo_map, params_solo (ownerOf_self hid) (bindInt_user hid) found.id]
  rfl

end Answers

/-- What can be said of accounts in tables that calls lead to. -/
structure StableAccounts (t : Tables) : Prop where
  single : (t.users.map (·.login)).Nodup
  accepts : ∀ random request, ∀ x : Visit, x.Calm → x.call = .register random request → request.Storable →
    ((∃ answer, (x.ended (some t)).result = .ok answer) ↔
      request.Given ∧ ∀ user ∈ t.users, user.login ≠ request.login)
  registers : ∀ random request answer, ∀ x : Visit, x.call = .register random request →
    (x.ended (some t)).result = .ok answer →
      ∃ u, (x.ended (some t)).database = some u ∧ Registered u random request answer
  /-- An account is what its login and its password lead to, with the parameters that it was registered with. -/
  account : ∀ random request answer, Registered t random request answer → random.length ≤ 1024 →
    ∃ account, answer = .account account ∧ account.login = request.login ∧ account.salt = request.salt ∧
      Answers t (.login ⟨request.login, request.password⟩) (.account account) ∧
      (account.id < 0x8000000000000000 → Answers t (.params account.id) (.account account))

theorem accounts_are_stable (events : List Event) :
    ∃ t, (World.run { database := some {} } events).database = some t ∧ StableAccounts t ∧
      ∀ random request now,
        (.register random request, now) ∈ (World.run { database := some {} } events).accepted →
          ∃ answer, Registered t random request answer := by
  obtain ⟨t, ht, single⟩ := World.invariant_run (I := fun _ t => (t.users.map (·.login)).Nodup) enrolling_holds
    (fun _ _ _ _ _ _ => logins_kept) (World.sound_initial Enrolling {}) rfl List.nodup_nil events
  refine ⟨t, ht, ⟨single, ?_, ?_, ?_⟩, fun _ _ _ => registered_of_accepted ht⟩
  · intro random request x calm hx storable
    exact register_accepted_iff calm hx storable
  · intro random request answer x hx accepted
    obtain ⟨u, stored, conducted⟩ := x.ended_answers (enrolling_holds x.call x.now) accepted
    rw [hx] at conducted
    obtain ⟨user, enrols, rfl, rfl⟩ := conducted
    exact ⟨_, stored, registered_of_enrols events ht enrols⟩
  · intro random request answer registered salted
    obtain ⟨s, user, enrols, found, rfl⟩ := registered.enrolled
    refine ⟨user.account, rfl, enrols.login, enrols.salt, login_answers enrols salted found, fun small => ?_⟩
    have positive : 0 < user.id := by
      rw [enrols.id]
      exact Tables.nextId_pos _
    exact params_answers ⟨positive, small⟩ found

def sampleRegistration : Registration := ⟨[97], [112], [115]⟩

theorem sample_registered : ∃ user, Enrols [] sampleRegistration {} user ∧
    Registered { users := [user] } [] sampleRegistration (.account user.account) := by
  have storable : sampleRegistration.Storable := ⟨by decide, by decide, by decide, by decide⟩
  obtain ⟨user, enrols⟩ := exists_enrolled (t := {}) storable ⟨nofun, nofun, nofun⟩ nofun []
  exact ⟨user, enrols, registered_of_enrols [] rfl enrols⟩

end Vault

end Strongbox
