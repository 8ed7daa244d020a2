import Strongbox.Proofs.Sync.Plan
import Strongbox.Proofs.Vault.Reachable
import Strongbox.Proofs.Vault.Success

/-!
# Plans that can be carried out

A plan is made of the tables that one statement finds. An upload that it asks for is of a record that is not
there, and an update or a deletion is of one that is. Such a record may be a tombstone only if the client
claims a version that the server has not seen, and otherwise the write is accepted.
-/

namespace Strongbox

namespace Sync

open Keyed Vault Store

variable {user : Int} {t : Tables} {states : List Descriptor} {recordId : Text} {r : Record} {d : Descriptor}

theorem last?_states (single : (Record.ofKey user recordId t.records).length ≤ 1) :
    last? recordId (t.states user) = (t.find? user recordId).map Record.descriptor := by
  rw [Tables.find?_eq_head?]
  have known : ∀ d ∈ t.states user, d.recordId = recordId →
      ∃ r ∈ Record.ofKey user recordId t.records, r.descriptor = d := by
    intro d hd hid
    obtain ⟨r, hr, rfl⟩ := List.mem_map.mp hd
    obtain ⟨hr, hown⟩ := List.mem_filter.mp hr
    exact ⟨r, Record.mem_ofKey.mpr ⟨hr, by simpa using hown, hid⟩, rfl⟩
  cases hrows : Record.ofKey user recordId t.records with
  | nil =>
    rw [hrows] at known
    apply last?_eq_none.mpr
    intro d hd hid
    obtain ⟨r, hr, _⟩ := known d hd hid
    cases hr
  | cons r rest =>
    have alone : rest = [] := by
      rw [hrows] at single
      simpa using single
    have mem : r ∈ Record.ofKey user recordId t.records := by simp [hrows]
    obtain ⟨hr, hown, hid⟩ := Record.mem_ofKey.mp mem
    cases hlast : last? recordId (t.states user) with
    | none =>
      have listed : r.descriptor ∈ t.states user :=
        List.mem_map_of_mem (List.mem_filter.mpr ⟨hr, by simpa using hown⟩)
      exact absurd hid (last?_eq_none.mp hlast _ listed)
    | some d =>
      obtain ⟨s, hs, rfl⟩ := known d (mem_of_last? hlast) (key_of_last? hlast)
      rw [hrows, alone] at hs
      rw [List.mem_singleton.mp hs]
      rfl

theorem checkIds_nonblank {ids : List Text} (h : ∀ recordId ∈ ids, recordId.blank = false) :
    checkIds ids = .ok () := by
  have none : ids.any Text.blank = false := by simpa using h
  unfold checkIds
  rw [none]
  rfl

theorem compare_eval (hu : IsUserId user) (nonblank : ∀ d ∈ states, d.recordId.blank = false) {s : Session}
    (hs : s.visible = some t) :
    (compare user ⟨some user, states⟩).eval s = .ok (plan (t.states user) states, s) := by
  have ids : checkIds (states.map (·.recordId)) = .ok () := by
    apply checkIds_nonblank
    intro recordId hid
    obtain ⟨d, hd, rfl⟩ := List.mem_map.mp hid
    exact nonblank d hd
  have lookup : s.execute (selectRows Tables.ofOwner user) = .ok (t.ofOwner user, s) := by
    simp only [Session.execute, hs, selectRows, reading, bindInt_user hu]
    rfl
  unfold compare
  rw [ownerFor_self hu, ids, Routine.eval_bind_ok]
  refine ⟨user, s, rfl, ?_⟩
  rw [Routine.eval_bind_ok]
  refine ⟨(), s, rfl, ?_⟩
  rw [Routine.eval_bind_ok]
  exact ⟨_, s, (Routine.eval_statement _ s).trans lookup, rfl⟩

theorem call_compare_eval (hu : IsUserId user) (nonblank : ∀ d ∈ states, d.recordId.blank = false) {now : Int} :
    ((Call.compare user ⟨some user, states⟩).routine now).eval { database := some t } =
      .ok (.plan (plan (t.states user) states), { database := some t }) :=
  Routine.eval_bind_ok.mpr ⟨_, _, compare_eval hu nonblank rfl, rfl⟩

/-- A calm comparison answers with the plan for the records as they are. -/
theorem calm_compare (hu : IsUserId user) (nonblank : ∀ d ∈ states, d.recordId.blank = false) {x : Visit}
    (calm : x.Calm) (hx : x.call = .compare user ⟨some user, states⟩) :
    (x.ended (some t)).result = .ok (.plan (plan (t.states user) states)) := by
  have answer : (x.call.routine x.now).eval { database := some t } =
      .ok (.plan (plan (t.states user) states), { database := some t }) := by
    rw [hx]
    exact call_compare_eval hu nonblank
  exact (calm.ended answer).1

theorem mem_bucket_states (orderly : t.Orderly) {b : Bucket} :
    d ∈ (plan (t.states user) states).bucket b ↔
      classify ((t.find? user d.recordId).map Record.descriptor) (last? d.recordId states) = some (b, d) := by
  rw [mem_bucket, last?_states (orderly.single user d.recordId)]

/-- What a plan asks for can be done. -/
structure Feasible (user : Int) (t : Tables) (p : Plan) : Prop where
  uploads : ∀ d ∈ p.upload, t.find? user d.recordId = none
  /-- The others are of records that are there, live ones unless the client is ahead of a tombstone. -/
  known : ∀ d ∈ p.update ++ p.deleteServer, ∃ r, t.find? user d.recordId = some r ∧
    (r.deleted = true → r.version < d.version)
  updates : ∀ d ∈ p.update, ∀ r, t.find? user d.recordId = some r → r.deleted = false →
    ∀ item : Revision, item.Proper → item.recordId = d.recordId → item.version = some r.version →
    ∀ x : Visit, x.Calm → x.call = .update user { userId := some user, items := [item] } →
      ∃ answer, (x.ended (some t)).result = .ok answer
  deletions : ∀ d ∈ p.deleteServer, ∀ r, t.find? user d.recordId = some r → r.deleted = false →
    ∀ item : Removal, item.Proper → item.recordId = d.recordId → item.version = some r.version →
    ∀ x : Visit, x.Calm → x.call = .delete user { userId := some user, entries := [item] } →
      ∃ answer, (x.ended (some t)).result = .ok answer

theorem enabled_of_find? {e : Deed} (he : e.act.isCreation = false)
    (hr : t.find? e.owner e.act.recordId = some r) (live : r.deleted = false)
    (hv : e.act.version = some r.version) : e.Enabled t.records := by
  have key := List.find?_some hr
  exact (Deed.enabled_write he).mpr
    ⟨r, List.mem_of_find?_eq_some hr, Deed.hits_iff.mpr ⟨Record.isOf_iff.mp key, hv, live⟩⟩

/-- A write of one live record that names its version is accepted. -/
theorem write_accepted (act : Act) (hu : IsUserId user) {batch : Batch} (proper : batch.Proper user)
    (hact : act.isCreation = false) (hr : t.find? user act.recordId = some r) (live : r.deleted = false)
    (hv : act.version = some r.version) {x : Visit} (calm : x.Calm) (hx : x.call = batch.call user)
    (deeds : x.call.deeds x.now = [⟨user, x.now, act⟩]) :
    ∃ answer, (x.ended (some t)).result = .ok answer := by
  have enabled : Deed.AllEnabled t.records (x.call.deeds x.now) := by
    rw [deeds]
    exact ⟨enabled_of_find? hact hr live hv, trivial⟩
  exact (calm.succeeds hu proper hx enabled).1

theorem plan_feasible (hu : IsUserId user) (orderly : t.Orderly) (states : List Descriptor) :
    Feasible user t (plan (t.states user) states) := by
  constructor
  · intro d hd
    obtain ⟨_, _, unknown⟩ := classify_iff.mp ((mem_bucket_states orderly (b := .upload)).mp hd)
    simpa using unknown
  · intro d hd
    have pushed : ∃ b, (b = .update ∨ b = .deleteServer) ∧ d ∈ (plan (t.states user) states).bucket b := by
      rcases List.mem_append.mp hd with hd | hd
      · exact ⟨.update, .inl rfl, hd⟩
      · exact ⟨.deleteServer, .inr rfl, hd⟩
    obtain ⟨b, hb, hd⟩ := pushed
    obtain ⟨s, hs, _, behind⟩ := classify_eq_push hb ((mem_bucket_states orderly).mp hd)
    obtain ⟨r, hr, rfl⟩ := Option.map_eq_some_iff.mp hs
    exact ⟨r, hr, behind⟩
  · intro d _ r hr live item proper hid hv x calm hx
    have batch : Batch.Proper user (.update { userId := some user, items := [item] }) :=
      ⟨rfl, List.cons_ne_nil _ _, by simpa using proper⟩
    rw [← hid] at hr
    exact write_accepted (.amend item.amendment) hu batch rfl hr live hv calm hx (by rw [hx]; rfl)
  · intro d _ r hr live item proper hid hv x calm hx
    have batch : Batch.Proper user (.delete { userId := some user, entries := [item] }) :=
      ⟨rfl, List.cons_ne_nil _ _, by simpa using proper⟩
    rw [← hid] at hr
    exact write_accepted (.amend item.amendment) hu batch rfl hr live hv calm hx (by rw [hx]; rfl)

/-- A plan for reachable tables is answered, and can be carried out. -/
theorem plan_can_be_carried_out (reachable : t.Reachable) (hu : IsUserId user)
    (nonblank : ∀ d ∈ states, d.recordId.blank = false) {x : Visit} (calm : x.Calm)
    (hx : x.call = .compare user ⟨some user, states⟩) :
    ∃ p, (x.ended (some t)).result = .ok (.plan p) ∧ Feasible user t p :=
  ⟨_, calm_compare hu nonblank calm hx, plan_feasible hu (reachable_orderly reachable) states⟩

def sampleVisit (call : Call) : Visit := { call, now := 2, timeout := .finite false 5 0 }

theorem sampleVisit_calm (call : Call) : (sampleVisit call).Calm := by
  constructor
  · rfl
  · rfl
  · rfl
  · exact fun _ => rfl
  · exact fun _ => rfl

/-- A user uploads three records and deletes the second. -/
def sampleEvents : List Event :=
  let item (recordId : Text) : NewRecord := ⟨recordId, [120], [121]⟩
  [.start 0 (.upload 1 { userId := some 1, items := [item [97], item [98], item [99]] }) 0] ++
    List.replicate 4 (.advance 0) ++
    [.start 1 (.delete 1 { userId := some 1, entries := [⟨[98], some 0⟩] }) 1] ++
    List.replicate 3 (.advance 1)

def sampleTables : Tables :=
  { records := [⟨1, 1, [97], [120], [121], 0, false, 0, 0⟩, ⟨2, 1, [98], [120], [121], 1, true, 0, 1⟩,
      ⟨3, 1, [99], [120], [121], 0, false, 0, 0⟩] }

theorem sampleTables_reachable : sampleTables.Reachable := ⟨[], sampleEvents, rfl⟩

def sampleStates : List Descriptor :=
  [⟨[97], [122], 0, false, none⟩, ⟨[99], [121], 0, true, none⟩, ⟨[100], [121], 0, false, none⟩]

theorem sample_plan_can_be_carried_out : ∃ p,
    ((sampleVisit (.compare 1 ⟨some 1, sampleStates⟩)).ended (some sampleTables)).result = .ok (.plan p) ∧
      Feasible 1 sampleTables p :=
  plan_can_be_carried_out sampleTables_reachable ⟨by decide, by decide⟩ (by decide) (sampleVisit_calm _) rfl

/-- A client that is ahead of a tombstone is told to update it, and the update is refused. -/
theorem update_planned_for_tombstone :
    let ahead : Descriptor := ⟨[98], [121], 2, false, none⟩
    let item : Revision := ⟨[98], [120], [121], some 1⟩
    sampleTables.Reachable ∧ ahead.recordId.blank = false ∧
      (∃ p, ((sampleVisit (.compare 1 ⟨some 1, [ahead]⟩)).ended (some sampleTables)).result = .ok (.plan p) ∧
        ahead ∈ p.update) ∧
      (∃ r, sampleTables.find? 1 ahead.recordId = some r ∧ r.deleted = true ∧ item.version = some r.version) ∧
      ((sampleVisit (.update 1 { userId := some 1, items := [item] })).ended (some sampleTables)).result =
        .error (.vault (.of .notFound [] (some ahead.recordId))) := by
  intro ahead item
  refine ⟨sampleTables_reachable, by decide, ⟨_, rfl, ?_⟩, ⟨_, rfl, rfl, rfl⟩, rfl⟩
  exact List.mem_singleton.mpr rfl

end Sync

end Strongbox
