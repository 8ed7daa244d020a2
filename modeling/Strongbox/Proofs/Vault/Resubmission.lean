import Strongbox.Proofs.Vault.NoLostUpdate
import Strongbox.Proofs.Vault.Reachable
import Strongbox.Proofs.Vault.Success

/-!
# Batches made again

A batch that was accepted leaves its mark: its records are there, past the versions that it names, or tombstones.
No later call takes that back, so the same batch is refused ever after.
-/

namespace Strongbox

open Store

namespace Vault

variable {caller now : Int} {t : Tables}

def missed (t : Tables) (owner : Int) (recordId : Text) : VaultError :=
  match t.find? owner recordId with
  | none => .of .notFound [] (some recordId)
  | some r => .of (if r.deleted then .notFound else .versionConflict) [] (some recordId)

theorem explain_solo {owner version : Int} {recordId : Text} (ho : bindInt owner = .ok ())
    (hid : bindText recordId = .ok ()) :
    (explain owner recordId version).solo t = .error (.vault (missed t owner recordId)) := by
  unfold explain missed
  rw [Routine.solo_bind, selectRecord, Routine.solo_reading (bound_id ho hid), bind_of_ok rfl]
  dsimp only
  cases t.find? owner recordId with
  | none => rfl
  | some r =>
    cases hd : r.deleted with
    | true => simp only [hd, if_true]; rfl
    | false => simp only [hd]; rfl

theorem change_none {test : Record → Bool} {f : Record → Record} (h : ∀ r ∈ t.records, test r = false) :
    t.change test f = (0, t) := by
  have count : t.records.countP test = 0 := List.countP_eq_zero.mpr fun r hr => by simp [h r hr]
  have same : (t.records.map fun r => if test r then f r else r) = t.records.map id :=
    List.map_congr_left fun r hr => by simp [h r hr]
  simp only [Tables.change, count, same, List.map_id]

/-- A batch is refused if its first write could be executed before, and finds no record at its version now. -/
theorem amendEach_missed {owner version later : Int} {item : Amendment} {rest : List (Amendment × Int)} {count : Nat}
    (before : (Routine.statement (amendRecord owner now item version)).MayYield count)
    (late : ∀ r ∈ t.records, Tables.writable owner item.recordId version r = false) :
    (amendEach owner later ((item, version) :: rest)).solo t = .error (.vault (missed t owner item.recordId)) := by
  -- whether its values can be bound does not depend on the time
  have bound := Routine.mayYield_writing before
  obtain ⟨_, _, bindable⟩ := bind_eq_ok.mp bound
  obtain ⟨_, ho, bindable⟩ := bind_eq_ok.mp bindable
  obtain ⟨_, hid, _⟩ := bind_eq_ok.mp bindable
  rw [amendEach, Routine.solo_bind, amendRecord, Routine.solo_writing bound, bind_of_ok rfl, Tables.amend,
    change_none late]
  dsimp only
  rw [if_pos rfl, Routine.solo_bind, explain_solo ho hid]
  rfl

/-- A write that was accepted leaves its record past the version that it names. -/
theorem Agrees.past {row : List Record} {log : List Deed} {d : Deed} {version : Int} (h : Agrees row log)
    (hd : d ∈ log) (hv : d.act.version = some version) : ∃ r, row = [r] ∧ version < r.version := by
  cases h with
  | unused => cases hd
  | used created written versions stored =>
    rename_i r first writes
    refine ⟨r, rfl, ?_⟩
    rcases List.mem_cons.mp hd with rfl | hd
    · obtain ⟨item, ha⟩ := Deed.isCreation_iff.mp created
      rw [ha] at hv
      cases hv
    · have named : some version ∈ writes.map (·.act.version) := List.mem_map.mpr ⟨d, hd, hv⟩
      rw [versions] at named
      obtain ⟨k, hk, same⟩ := List.mem_map.mp named
      have := List.mem_range.mp hk
      cases same
      omega

/-- What was accepted, and what is in the records: each tells of the other. -/
theorem World.run_tells (users : List User) (events : List Event) :
    let w := World.run { database := some { users } } events
    ∃ t, w.database = some t ∧ Replay w.history t.records ∧ ∀ owner recordId,
      Agrees (Record.ofKey owner recordId t.records) (w.history.filter (Deed.isOf owner recordId)) := by
  intro w
  obtain ⟨t, ht, henabled, hrecords⟩ := World.run_effect { users } events
  refine ⟨t, ht, ?_, ?_⟩
  · rw [hrecords]
    exact replay_nil.performAll henabled
  · intro owner recordId
    have start : Agrees (Record.ofKey owner recordId []) ([].filter (Deed.isOf owner recordId)) := .unused
    rw [hrecords]
    exact start.performAll henabled

/-- No row is at the version that an accepted write names. -/
theorem Agrees.late {log : List Deed} {d : Deed} {version : Int}
    (h : Agrees (Record.ofKey d.owner d.act.recordId t.records) log) (hd : d ∈ log)
    (hv : d.act.version = some version) : (∃ r, t.find? d.owner d.act.recordId = some r) ∧
      ∀ r ∈ t.records, Tables.writable d.owner d.act.recordId version r = false := by
  obtain ⟨r, hr, past⟩ := h.past hd hv
  refine ⟨⟨r, by rw [Tables.find?_eq_head?, hr]; rfl⟩, ?_⟩
  intro s hs
  refine Bool.eq_false_iff.mpr fun hit => ?_
  simp only [Tables.writable, Bool.and_eq_true, beq_iff_eq] at hit
  obtain ⟨hu, hi⟩ := Record.isOf_iff.mp hit.1.1
  have mem : s ∈ Record.ofKey d.owner d.act.recordId t.records := Record.mem_ofKey.mpr ⟨hs, hu, hi⟩
  rw [hr] at mem
  obtain rfl := List.mem_singleton.mp mem
  have := hit.1.2
  omega

section Again

variable {history : List Deed}

theorem amend_again
    (agrees : ∀ owner recordId, Agrees (Record.ofKey owner recordId t.records)
      (history.filter (Deed.isOf owner recordId)))
    {missing verb : String} {named : Option Int} {items : List Amendment}
    (before : (amend missing verb caller now named items).MayYield ())
    (accepted : ∀ d ∈ Deed.batch caller now .amend items, d ∈ history) {later : Int}
    (dated : Timestamp.isDated later = true) : ∃ first rest r, items = first :: rest ∧
      t.find? caller first.recordId = some r ∧
      (amend missing verb caller later named items).solo t = .error (.vault (missed t caller first.recordId)) := by
  obtain ⟨owned, nonempty, _, checked, hcheck, hbody⟩ := opening_mayYield before
  obtain ⟨same, passed⟩ := checkEach_ok hcheck
  cases checked with
  | nil => exact absurd same.symm (List.isEmpty_eq_false_iff.mp nonempty)
  | cons p others =>
    obtain ⟨_, version⟩ := passed p List.mem_cons_self
    obtain ⟨count, hwrite⟩ := amendEach_mayYield hbody List.mem_cons_self
    have deed : (⟨caller, now, .amend p.1⟩ : Deed) ∈ history := accepted _ (by
      rw [← same]
      exact List.mem_cons_self)
    have listed := List.mem_filter.mpr ⟨deed, Deed.isOf_iff.mpr ⟨rfl, rfl⟩⟩
    obtain ⟨⟨r, known⟩, late⟩ := (agrees caller p.1.recordId).late listed version
    refine ⟨p.1, _, r, same.symm, known, ?_⟩
    unfold amend
    rw [opening_passed owned dated nonempty hcheck, Routine.solo_bind, amendEach_missed hwrite late]
    rfl

theorem upload_again (replay : Replay history t.records) {request : Upload} {views : List RecordView}
    (before : (upload caller now request).MayYield views)
    (accepted : ∀ d ∈ Deed.batch caller now .create request.items, d ∈ history) {later : Int}
    (dated : Timestamp.isDated later = true) : ∃ item ∈ request.items,
      (upload caller later request).solo t = .error (.vault (conflict item.recordId)) := by
  obtain ⟨owned, nonempty, _, checked, hcheck, hbody⟩ := opening_mayYield before
  obtain ⟨rows, hinsert, _⟩ := Routine.mayYield_bind hbody
  obtain ⟨found, hlookup, _⟩ := Routine.mayYield_bind hinsert
  have bound := Routine.mayYield_reading hlookup
  obtain ⟨first, rest, hitems⟩ := List.exists_cons_of_ne_nil (List.isEmpty_eq_false_iff.mp nonempty)
  have deed : (⟨caller, now, .create first⟩ : Deed) ∈ history := accepted _ (by
    rw [hitems]
    exact List.mem_cons_self)
  have known : Record.ofKey caller first.recordId t.records ≠ [] :=
    replay.known_iff.mpr ⟨_, deed, Deed.isOf_iff.mpr ⟨rfl, rfl⟩⟩
  cases taken : t.taken? caller (request.items.map (·.recordId)) with
  | none =>
    have listed : first.recordId ∈ request.items.map (·.recordId) := by simp [hitems]
    exact absurd (taken?_eq_none_iff.mp taken _ listed) known
  | some recordId =>
    obtain ⟨item, hi, rfl⟩ := List.mem_map.mp (taken?_eq_some taken).1
    refine ⟨item, hi, ?_⟩
    unfold upload
    rw [opening_passed owned dated nonempty hcheck, Routine.solo_bind, insertBatch, Routine.solo_bind,
      selectTaken, Routine.solo_reading bound, taken]
    rfl

end Again

/-- The record of a removal that was accepted is a tombstone. -/
theorem Replay.removed {history : List Deed} {d : Deed} {r : Record} (replay : Replay history t.records)
    (hd : d ∈ history) (removal : d.act.isRemoval = true) (hr : t.find? d.owner d.act.recordId = some r) :
    r.deleted = true := by
  have listed := List.mem_filter.mpr ⟨hd, Deed.isOf_iff.mpr ⟨rfl, rfl⟩⟩
  rcases replay.each d.owner d.act.recordId with ⟨none, _⟩ | ⟨s, hs, told⟩
  · rw [none] at listed
    cases listed
  · rw [Tables.find?_eq_head?, hs] at hr
    cases hr
    rw [told.deleted, List.any_eq_true]
    exact ⟨d, listed, removal⟩

/-- A deed that was accepted is never enabled again. -/
theorem not_enabled_again {history : List Deed} {act : Act} {later : Int} (replay : Replay history t.records)
    (agrees : ∀ owner recordId, Agrees (Record.ofKey owner recordId t.records)
      (history.filter (Deed.isOf owner recordId)))
    (hd : (⟨caller, now, act⟩ : Deed) ∈ history) : ¬ (⟨caller, later, act⟩ : Deed).Enabled t.records := by
  intro enabled
  cases creation : act.isCreation with
  | true =>
    have known : Record.ofKey caller act.recordId t.records ≠ [] :=
      replay.known_iff.mpr ⟨_, hd, Deed.isOf_iff.mpr ⟨rfl, rfl⟩⟩
    exact known ((Deed.enabled_creation creation).mp enabled)
  | false =>
    obtain ⟨r, hr, hit⟩ := (Deed.enabled_write creation).mp enabled
    obtain ⟨_, hv, _⟩ := Deed.hits_iff.mp hit
    have listed := List.mem_filter.mpr ⟨hd, Deed.isOf_iff.mpr ⟨rfl, rfl⟩⟩
    obtain ⟨_, late⟩ := (agrees caller act.recordId).late listed hv
    rw [hits_eq_writable hv, late r hr] at hit
    cases hit

/-- A batch that may be accepted has a first item. -/
theorem Batch.first_deed {batch : Batch} {answer : Answer}
    (before : ((batch.call caller).routine now).MayYield answer) :
    ∃ act, ∀ time, ∃ rest, (batch.call caller).deeds time = ⟨caller, time, act⟩ :: rest := by
  cases batch with
  | upload request =>
    obtain ⟨views, hviews, _⟩ := Routine.mayYield_bind before
    obtain ⟨first, rest, hitems⟩ :=
      List.exists_cons_of_ne_nil (List.isEmpty_eq_false_iff.mp (opening_mayYield hviews).2.1)
    exact ⟨.create first, fun time => ⟨Deed.batch caller time .create rest,
      congrArg (Deed.batch caller time .create) hitems⟩⟩
  | update request =>
    obtain ⟨_, hdone, _⟩ := Routine.mayYield_bind before
    obtain ⟨first, rest, hitems⟩ :=
      List.exists_cons_of_ne_nil (List.isEmpty_eq_false_iff.mp (opening_mayYield hdone).2.1)
    exact ⟨.amend first, fun time => ⟨Deed.batch caller time .amend rest,
      congrArg (Deed.batch caller time .amend) hitems⟩⟩
  | delete request =>
    obtain ⟨_, hdone, _⟩ := Routine.mayYield_bind before
    obtain ⟨first, rest, hentries⟩ :=
      List.exists_cons_of_ne_nil (List.isEmpty_eq_false_iff.mp (opening_mayYield hdone).2.1)
    exact ⟨.amend first, fun time => ⟨Deed.batch caller time .amend rest,
      congrArg (Deed.batch caller time .amend) hentries⟩⟩

/-- How a batch is refused that was accepted before. -/
def Batch.RefusedAgain (caller : Int) (t : Tables) (result : Outcome Answer) : Batch → Prop
  | .upload request => ∃ item ∈ request.items, result = .error (.vault (conflict item.recordId))
  | .update request => ∃ first rest r, request.items = first :: rest ∧
    t.find? caller first.recordId = some r ∧
    result = .error (.vault (.of (if r.deleted then .notFound else .versionConflict) [] (some first.recordId)))
  | .delete request => ∃ first rest, request.entries = first :: rest ∧
    result = .error (.vault (.of .notFound [] (some first.recordId)))

theorem Batch.again {history : List Deed} {batch : Batch} {answer : Answer} (replay : Replay history t.records)
    (agrees : ∀ owner recordId, Agrees (Record.ofKey owner recordId t.records)
      (history.filter (Deed.isOf owner recordId)))
    (before : ((batch.call caller).routine now).MayYield answer)
    (accepted : ∀ d ∈ (batch.call caller).deeds now, d ∈ history) {later : Int}
    (dated : Timestamp.isDated later = true) : ∃ e, ((batch.call caller).routine later).solo t = .error e ∧
      batch.RefusedAgain caller t (.error e) := by
  cases batch with
  | upload request =>
    obtain ⟨views, hviews, _⟩ := Routine.mayYield_bind before
    obtain ⟨item, hi, refused⟩ := upload_again replay hviews accepted dated
    exact ⟨_, by rw [Batch.call, Call.routine, Routine.solo_map, refused]; rfl, item, hi, rfl⟩
  | update request =>
    obtain ⟨_, hdone, _⟩ := Routine.mayYield_bind before
    obtain ⟨_, _, r, hitems, known, refused⟩ := amend_again agrees hdone accepted dated
    obtain ⟨first, rest, listed, rfl, _⟩ := List.map_eq_cons_iff.mp hitems
    refine ⟨_, by rw [Batch.call, Call.routine, Routine.solo_map, Vault.update, refused]; rfl, first, rest, r, listed,
      known, ?_⟩
    rw [missed, known]
    rfl
  | delete request =>
    obtain ⟨_, hdone, _⟩ := Routine.mayYield_bind before
    obtain ⟨_, _, r, hitems, known, refused⟩ := amend_again agrees hdone accepted dated
    obtain ⟨first, rest, listed, rfl, _⟩ := List.map_eq_cons_iff.mp hitems
    refine ⟨_, by rw [Batch.call, Call.routine, Routine.solo_map, Vault.delete, refused]; rfl, first, rest, listed, ?_⟩
    have deed : (⟨caller, now, .amend first.amendment⟩ : Deed) ∈ history := accepted _ (by
      rw [Batch.call, Call.deeds, hitems]
      exact List.mem_cons_self)
    rw [missed, known]
    simp only [replay.removed deed rfl known, if_true]
    rfl

/-- Whatever calls are made after a batch was accepted, and however they are interleaved, the same batch of the same
user never changes anything again. Where nothing else goes wrong, it is refused for what became of its records. -/
theorem accepted_batch_refused_again (users : List User) (events later : List Event) {batch : Batch}
    (accepted : (batch.call caller, now) ∈ (World.run { database := some { users } } events).accepted)
    {x : Visit} (hx : x.call = batch.call caller) :
    let w := (World.run { database := some { users } } events).run later
    (x.ended w.database).database = w.database ∧
      (x.Calm → ∃ t, w.database = some t ∧ batch.RefusedAgain caller t (x.ended w.database).result) := by
  intro w
  have joined : World.run { database := some { users } } (events ++ later) = w := List.foldl_append
  obtain ⟨t, ht, replay, agrees⟩ := World.run_tells users (events ++ later)
  rw [joined] at ht replay agrees
  have still : (batch.call caller, now) ∈ w.accepted := (World.accepted_run _ later).subset accepted
  obtain ⟨answer, before⟩ :=
    (World.honest_run (World.honest_initial (some { users })) events).accepted _ accepted
  have listed : ∀ d ∈ (batch.call caller).deeds now, d ∈ w.history :=
    fun d hd => List.mem_flatMap.mpr ⟨_, still, hd⟩
  rw [ht]
  constructor
  -- whatever goes wrong around the call, a change would need the first deed of the batch to be enabled again
  · rcases x.ended_database (some t) with same | ⟨t', u, ht', _, enabled, _⟩
    · exact same
    · cases ht'
      obtain ⟨act, deeds⟩ := Batch.first_deed before
      obtain ⟨rest, first⟩ := deeds now
      obtain ⟨rest', again⟩ := deeds x.now
      rw [hx, again] at enabled
      have done : (⟨caller, now, act⟩ : Deed) ∈ w.history := listed _ (by
        rw [first]
        exact List.mem_cons_self)
      exact absurd enabled.1 (not_enabled_again replay agrees done)
  · intro calm
    obtain ⟨e, solo, refused⟩ := Batch.again replay agrees before listed calm.dated
    rw [← hx] at solo
    refine ⟨t, rfl, ?_⟩
    rw [(calm.ended_solo_error solo).1]
    exact refused

def sampleChange : Batch :=
  .update { userId := some 1, items := [⟨[97], [100], [99], some 0⟩, ⟨[97], [101], [99], some 1⟩] }

def changeEvents : List Event :=
  [.start 0 (.upload 1 { userId := some 1, items := [⟨[97], [98], [99]⟩] }) 5] ++
    List.replicate 4 (.advance 0) ++ [.start 1 (sampleChange.call 1) 6] ++ List.replicate 4 (.advance 1)

def deletionEvents : List Event :=
  [.start 2 (.delete 1 { userId := some 1, entries := [⟨[97], some 2⟩] }) 7] ++ List.replicate 3 (.advance 2)

theorem sampleChange_accepted :
    (sampleChange.call 1, 6) ∈ (World.run { database := some {} } changeEvents).accepted := by decide

theorem database_after_deletion :
    ((World.run { database := some {} } changeEvents).run deletionEvents).database =
      some { records := [⟨1, 1, [97], [101], [99], 3, true, 5, 7⟩] } := rfl

/-- The update is made again after the record was deleted. -/
theorem sample_update_refused_again :
    let x : Visit := { call := sampleChange.call 1, now := 8, timeout := .finite false 5 0 }
    let w := (World.run { database := some {} } changeEvents).run deletionEvents
    (sampleChange.call 1, 6) ∈ (World.run { database := some {} } changeEvents).accepted ∧
      ((x.ended w.database).database = w.database ∧
        (x.Calm → ∃ t, w.database = some t ∧ sampleChange.RefusedAgain 1 t (x.ended w.database).result)) ∧
      x.Calm ∧ (x.ended w.database).result = .error (.vault (.of .notFound [] (some [97]))) := by
  intro x w
  have calm : x.Calm := ⟨rfl, rfl, rfl, fun _ => rfl, fun _ => rfl⟩
  refine ⟨sampleChange_accepted,
    accepted_batch_refused_again [] changeEvents deletionEvents sampleChange_accepted rfl, calm, ?_⟩
  rw [database_after_deletion]
  rfl

end Vault

end Strongbox
