import Strongbox.Proofs.Accounts.Stability
import Strongbox.Proofs.Vault.Replay

/-!
# Whose records there are

The owners of the records are those who uploaded them. Nothing else makes them users: who calls is told by a token,
and a token outlives the tables in which it was issued.
-/

namespace Strongbox

def Tables.HasUser (t : Tables) (id : Int) : Prop := ∃ user ∈ t.users, user.id = id

namespace Vault

open Store

variable {t u : Tables} {owner : Int} {w : World} {e : Event}

theorem upload_of_creation {call : Call} {now : Int} {d : Deed} (hd : d ∈ call.deeds now)
    (creation : d.act.isCreation = true) : ∃ request, call = .upload d.owner request := by
  have own := Call.owner_of_mem_deeds hd
  cases call with
  | upload caller request =>
    cases own
    exact ⟨request, rfl⟩
  | update caller request =>
    obtain ⟨item, _, rfl⟩ := List.mem_map.mp hd
    cases creation
  | delete caller request =>
    obtain ⟨item, _, rfl⟩ := List.mem_map.mp hd
    cases creation
  | _ => cases hd

theorem creation_of_upload {request : Upload} {now : Int} {answer : Answer}
    (h : ((Call.upload owner request).routine now).MayYield answer) :
    ∃ d ∈ (Call.upload owner request).deeds now, d.act.isCreation = true ∧ d.owner = owner := by
  obtain ⟨views, hviews, _⟩ := Routine.mayYield_bind h
  obtain ⟨_, filled, _⟩ := opening_mayYield hviews
  obtain ⟨item, hi⟩ := List.exists_mem_of_ne_nil _ (List.isEmpty_eq_false_iff.mp filled)
  exact ⟨⟨owner, now, .create item⟩, List.mem_map_of_mem hi, rfl, rfl⟩

/-- The owners of the records are the callers of the accepted uploads. -/
theorem owner_iff {users : List User} {events : List Event}
    (ht : (World.run { database := some { users } } events).database = some t) : (∃ r ∈ t.records, r.userId = owner) ↔
      ∃ request now, (.upload owner request, now) ∈ (World.run { database := some { users } } events).accepted := by
  obtain ⟨_, hu, enabled, records⟩ := World.run_effect { users } events
  cases ht.symm.trans hu
  have keys := (replay_nil.performAll enabled).keys
  rw [List.nil_append, ← records] at keys
  constructor
  · rintro ⟨r, hr, rfl⟩
    have hkey : r.key ∈ t.records.map Record.key := List.mem_map_of_mem hr
    rw [keys] at hkey
    obtain ⟨d, hd, key⟩ := List.mem_map.mp hkey
    obtain ⟨hd, creation⟩ := List.mem_filter.mp hd
    obtain ⟨⟨call, now⟩, accepted, hd⟩ := List.mem_flatMap.mp hd
    obtain ⟨request, rfl⟩ := upload_of_creation hd creation
    have own : d.owner = r.userId := congrArg Prod.fst key
    exact ⟨request, now, own ▸ accepted⟩
  · rintro ⟨request, now, accepted⟩
    obtain ⟨answer, ended⟩ := (World.honest_run (World.honest_initial _) events).accepted _ accepted
    obtain ⟨d, hd, creation, own⟩ := creation_of_upload ended
    have hkey : d.key ∈ t.records.map Record.key := by
      rw [keys]
      exact List.mem_map_of_mem (List.mem_filter.mpr ⟨List.mem_flatMap.mpr ⟨_, accepted, hd⟩, creation⟩)
    obtain ⟨r, hr, key⟩ := List.mem_map.mp hkey
    exact ⟨r, hr, (congrArg Prod.fst key).trans own⟩

theorem hasUser_kept {call : Call} {answer : Answer} {now : Int} (known : t.HasUser owner)
    (h : Enrolling call now answer t u) : u.HasUser owner := by
  obtain ⟨user, hu, hid⟩ := known
  rcases enrolling_users h with same | ⟨_, _, _, _, added⟩
  · exact ⟨user, same ▸ hu, hid⟩
  · exact ⟨user, added ▸ List.mem_append_left _ hu, hid⟩

namespace World

/-- If it is an upload, its caller is a user. -/
def Vouches (w : World) (call : Call) : Prop :=
  ∀ caller request, call = .upload caller request → ∃ t, w.database = some t ∧ t.HasUser caller

def UsersUpload (w : World) : List Event → Prop
  | [] => True
  | e :: rest => (∀ id call now, e = .start id call now → w.Vouches call) ∧ UsersUpload (w.next e) rest

structure Vouched (w : World) : Prop where
  flights : ∀ id f, w.flights id = some f → w.Vouches f.call
  accepted : ∀ p ∈ w.accepted, w.Vouches p.1

theorem vouches_next {call : Call} (sound : w.Sound Enrolling) (h : w.Vouches call) (e : Event) : (w.next e).Vouches call := by
  intro caller request hcall
  obtain ⟨t, ht, known⟩ := h caller request hcall
  rcases (step_next w e).commits sound with ⟨database, _⟩ | ⟨_, found, left, _, conducted⟩
  · exact ⟨t, database.trans ht, known⟩
  · cases ht.symm.trans found
    exact ⟨_, left, hasUser_kept known conducted⟩

theorem vouched_next (sound : w.Sound Enrolling) (h : w.Vouched)
    (started : ∀ id call now, e = .start id call now → w.Vouches call) : (w.next e).Vouched := by
  constructor
  · intro id g hg
    apply vouches_next sound
    rcases (step_next w e).flights hg with ⟨f, hf, same, _⟩ | start
    · rw [same]
      exact h.flights id f hf
    · exact started id g.call g.now start
  · intro p hp
    apply vouches_next sound
    rcases (step_next w e).commits sound with ⟨_, accepted⟩ | ⟨flight, _, _, accepted, _⟩
    · exact h.accepted p (accepted ▸ hp)
    · rw [accepted] at hp
      rcases List.mem_append.mp hp with hp | hp
      · exact h.accepted p hp
      · rw [List.mem_singleton.mp hp]
        exact h.flights _ _ flight

theorem vouched_run (sound : w.Sound Enrolling) (h : w.Vouched) {events : List Event} (users : w.UsersUpload events) :
    (w.run events).Vouched := by
  induction events generalizing w with
  | nil => exact h
  | cons e rest ih =>
    obtain ⟨started, later⟩ := users
    exact ih ((step_next w e).sound enrolling_holds sound) (vouched_next sound h started) later

theorem vouched_initial (db : Database) : World.Vouched { database := db } where
  flights := fun _ _ hf => nomatch hf
  accepted := fun _ hp => nomatch hp

end World

/-- The records belong to users exactly if those who uploaded them are users; and they do if nobody starts an upload
without being a user by then. -/
theorem records_belong_to_users (users : List User) (events : List Event) :
    let w := World.run { database := some { users } } events
    ∃ t, w.database = some t ∧
      ((∀ r ∈ t.records, t.HasUser r.userId) ↔
        ∀ caller request now, (.upload caller request, now) ∈ w.accepted → t.HasUser caller) ∧
      (World.UsersUpload { database := some { users } } events → ∀ r ∈ t.records, t.HasUser r.userId) := by
  intro w
  obtain ⟨t, ht, _⟩ := World.run_effect { users } events
  have exact : (∀ r ∈ t.records, t.HasUser r.userId) ↔
      ∀ caller request now, (.upload caller request, now) ∈ w.accepted → t.HasUser caller := by
    constructor
    · intro belong caller request now accepted
      obtain ⟨r, hr, rfl⟩ := (owner_iff ht).mpr ⟨request, now, accepted⟩
      exact belong r hr
    · intro callers r hr
      obtain ⟨request, now, accepted⟩ := (owner_iff ht).mp ⟨r, hr, rfl⟩
      exact callers _ request now accepted
  refine ⟨t, ht, exact, fun started => exact.mpr ?_⟩
  intro caller request now accepted
  have vouched := World.vouched_run (World.sound_initial Enrolling _) (World.vouched_initial _) started
  obtain ⟨_, hu, known⟩ := vouched.accepted _ accepted caller request rfl
  cases ht.symm.trans hu
  exact known

def sampleOwner : User := ⟨1, [97], [112], [115]⟩

theorem sample_users_upload : World.UsersUpload { database := some { users := [sampleOwner] } } Sync.sampleEvents := by
  have upload : ∀ id call now, Sync.sampleEvents[0] = .start id call now →
      World.Vouches { database := some { users := [sampleOwner] } } call := by
    intro id call now started
    cases started
    rintro caller request ⟨⟩
    exact ⟨_, rfl, sampleOwner, List.mem_cons_self, rfl⟩
  have delete (w : World) : ∀ id call now, Sync.sampleEvents[5] = .start id call now → w.Vouches call := by
    intro id call now started
    cases started
    exact nofun
  exact ⟨upload, nofun, nofun, nofun, nofun, delete _, nofun, nofun, nofun, trivial⟩

theorem sample_records_belong_to_user :
    World.UsersUpload { database := some { users := [sampleOwner] } } Sync.sampleEvents ∧
    ∃ t, (World.run { database := some { users := [sampleOwner] } } Sync.sampleEvents).database = some t ∧
      t.records ≠ [] ∧ ∀ r ∈ t.records, t.HasUser r.userId := by
  obtain ⟨t, ht, _, belong⟩ := records_belong_to_users [sampleOwner] Sync.sampleEvents
  refine ⟨sample_users_upload, t, ht, ?_, belong sample_users_upload⟩
  cases ht
  nofun

/-- One who is no user has records. -/
theorem stranger_has_records : (World.run { database := some {} } Sync.sampleEvents).database = some Sync.sampleTables ∧
    ∃ r ∈ Sync.sampleTables.records, ¬ Sync.sampleTables.HasUser r.userId := by
  refine ⟨rfl, _, List.mem_cons_self, ?_⟩
  rintro ⟨user, hu, _⟩
  cases hu

end Vault

end Strongbox
