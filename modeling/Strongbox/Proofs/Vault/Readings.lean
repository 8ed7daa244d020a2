import Strongbox.Proofs.Sync.Feasibility

/-!
# One table behind all readings

Records are read in five ways: their states, all or some of them; the records themselves, all or some of them; and
the plan for a client. On reachable tables all five tell of the same records in the same order, and none of them
changes a thing.
-/

namespace Strongbox

def RecordView.descriptor (v : RecordView) : Descriptor :=
  { recordId := v.recordId, hash := v.hash, version := v.version, deleted := v.deleted, updatedAt := some v.updatedAt }

namespace Vault

open Store

def Call.Reads : Call → Prop
  | .download _ _ => True
  | .downloadAll _ => True
  | .allStates _ => True
  | .specificStates _ _ => True
  | .compare _ _ => True
  | _ => False

/-- In every calm visit to these tables the call has this answer. -/
def Answers (t : Tables) (call : Call) (answer : Answer) : Prop :=
  ∀ x : Visit, x.Calm → x.call = call → (x.ended (some t)).result = .ok answer

variable {user now : Int} {t : Tables} {call : Call} {answer : Answer}

theorem answers_of_solo (h : ∀ now, (call.routine now).solo t = .ok (answer, t)) : Answers t call answer := by
  intro x calm hx
  have alone := h x.now
  rw [← hx] at alone
  exact (calm.ended_solo alone).1

theorem solo_report {bind : Except Fault Unit} {read : Tables → α} (bound : bind = .ok ()) (report : α → β) :
    (do let x ← Routine.statement (reading bind read); pure (report x) : Routine β).solo t =
      .ok (report (read t), t) := by
  rw [Routine.solo_bind, Routine.solo_reading bound]
  rfl

theorem ownerOf_self (hu : IsUserId user) : Guard.ownerOf user = .ok user := by
  have := hu.positive
  apply if_neg
  omega

section Rows

variable {rows : Tables → Int → List Record} {form : Record → α}

theorem readAll_solo (hu : IsUserId user) :
    (readAll rows form user).solo t = .ok ((rows t user).map form, t) := by
  rw [readAll, ownerOf_self hu]
  exact solo_report (bindInt_user hu) _

theorem readAll_answers (hu : IsUserId user) {told : List α → Answer}
    (asks : ∀ now, call.routine now = (readAll rows form user).bind fun found => pure (told found)) :
    Answers t call (told ((rows t user).map form)) := by
  apply answers_of_solo
  intro now
  rw [asks, Routine.solo_map, readAll_solo hu]
  rfl

variable {missing : String} {check : List Text → Except VaultError Unit} {ids : List Text} {length : Option Int}

theorem readAmong_solo (hu : IsUserId user) (given : ids ≠ []) (encodable : ∀ recordId ∈ ids, recordId.Encodable)
    (checked : check ids = .ok ()) :
    (readAmong rows form missing check user ⟨some user, ids, length⟩).solo t =
      .ok (((rows t user).filter fun r => ids.contains r.recordId).map form, t) := by
  have nonempty : ids.isEmpty = false := List.isEmpty_eq_false_iff.mpr given
  unfold readAmong
  rw [ownerFor_self hu]
  simp only [nonempty, checked]
  exact solo_report (bound_ids (bindInt_user hu) encodable) _

theorem readAmong_answers (hu : IsUserId user) (given : ids ≠ []) (filled : ∀ recordId ∈ ids, recordId.Filled)
    (checked : check ids = .ok ()) {told : List α → Answer}
    (asks : ∀ now, call.routine now =
      (readAmong rows form missing check user ⟨some user, ids, length⟩).bind fun found => pure (told found)) :
    Answers t call (told (((rows t user).filter fun r => ids.contains r.recordId).map form)) := by
  apply answers_of_solo
  intro now
  rw [asks, Routine.solo_map, readAmong_solo hu given (fun recordId hi => (filled recordId hi).encodable) checked]
  rfl

end Rows

theorem allStates_solo (hu : IsUserId user) :
    ((Call.allStates user).routine now).solo t = .ok (.states (t.states user), t) := by
  rw [Call.routine, Routine.solo_map, Sync.allStates, readAll_solo hu]
  rfl

theorem compare_answers (hu : IsUserId user) {states : List Descriptor}
    (nonblank : ∀ d ∈ states, d.recordId.blank = false) :
    Answers t (.compare user ⟨some user, states⟩) (.plan (Sync.plan (t.states user) states)) :=
  fun _ calm hx => Sync.calm_compare hu nonblank calm hx

theorem checkIds_filled {ids : List Text} (filled : ∀ recordId ∈ ids, recordId.Filled) (index : Nat) :
    checkIds index ids = .ok () := by
  induction ids generalizing index with
  | nil => rfl
  | cons recordId rest ih =>
    have first := (filled recordId List.mem_cons_self).nonblank
    rw [checkIds, first]
    exact ih (fun other ho => filled other (List.mem_cons_of_mem recordId ho)) (index + 1)

/-- All readings of a user's records, told by the states and by what is handed out. -/
structure Readings (t : Tables) (user : Int) (states : List Descriptor) (views : List RecordView) : Prop where
  allStates : Answers t (.allStates user) (.states states)
  downloadAll : Answers t (.downloadAll user) (.records views)
  /-- What is handed out is what the states call live, in the same order. -/
  live : views.map RecordView.descriptor = states.filter (!·.deleted)
  download : ∀ ids length, ids ≠ [] → (∀ recordId ∈ ids, recordId.Filled) →
    Answers t (.download user ⟨some user, ids, length⟩) (.records (views.filter fun v => ids.contains v.recordId))
  specificStates : ∀ ids length, ids ≠ [] → (∀ recordId ∈ ids, recordId.Filled) →
    Answers t (.specificStates user ⟨some user, ids, length⟩) (.states (states.filter fun d => ids.contains d.recordId))
  ordered : ∀ chosen, ((views.filter chosen).map (·.serverId)).Pairwise (· < ·)
  single : ∀ chosen, ((states.filter chosen).map (·.recordId)).Nodup
  compare : Answers t (.compare user ⟨some user, []⟩) (.plan { download := states.filter (!·.deleted) })

theorem views_ordered (h : t.Orderly) (chosen : RecordView → Bool) :
    ((((t.liveOf user).map (Record.view none)).filter chosen).map (·.serverId)).Pairwise (· < ·) := by
  rw [List.pairwise_map]
  apply List.Pairwise.filter
  rw [List.pairwise_map]
  exact (List.pairwise_map.mp h.ofOwner_ordered).filter _

theorem live_descriptors : ((t.liveOf user).map (Record.view none)).map RecordView.descriptor =
    (t.states user).filter (!·.deleted) := by
  rw [Tables.states, List.filter_map, List.map_map]
  rfl

theorem readings (orderly : t.Orderly) (hu : IsUserId user) :
    Readings t user (t.states user) ((t.liveOf user).map (Record.view none)) := by
  constructor
  · exact readAll_answers hu fun _ => rfl
  · exact readAll_answers hu fun _ => rfl
  · exact live_descriptors
  · intro ids length given filled
    rw [List.filter_map]
    exact readAmong_answers hu given filled (checkIds_filled filled 0) fun _ => rfl
  · intro ids length given filled
    rw [Tables.states, List.filter_map]
    have checked := Sync.checkIds_nonblank fun recordId hi => (filled recordId hi).nonblank
    exact readAmong_answers hu given filled checked fun _ => rfl
  · exact views_ordered orderly
  · intro chosen
    exact (List.filter_sublist.map _).nodup orderly.states_nodup
  · rw [← Sync.plan_without_client orderly.states_nodup]
    apply compare_answers hu
    intro d hd
    cases hd

theorem Call.Reads.lands {P : Tables → Tables → Prop} (same : ∀ t, P t t) (h : call.Reads) : (call.routine now).Lands P := by
  cases call with
  | download caller request => exact Routine.landsAs_map _ (readAmong_lands same _ _ _ _ caller request)
  | downloadAll caller => exact Routine.landsAs_map _ (readAll_lands same _ _ caller)
  | allStates caller => exact Routine.landsAs_map _ (readAll_lands same _ _ caller)
  | specificStates caller request => exact Routine.landsAs_map _ (readAmong_lands same _ _ _ _ caller request)
  | compare caller request => exact Routine.landsAs_map _ (compare_lands same caller request)
  | _ => cases h

/-- Whatever happens around it, a call that only reads leaves the database as it is. -/
theorem reading_changes_nothing {x : Visit} (h : x.call.Reads) (db : Database) : (x.ended db).database = db := by
  rcases x.ended_lands (h.lands fun _ => rfl) db with same | ⟨t, u, hdb, left, rfl⟩
  · exact same
  · rw [left, hdb]

structure RowsOf (t : Tables) (user : Int) (rows : List Record) : Prop where
  complete : ∀ r, r ∈ rows ↔ r ∈ t.records ∧ r.userId = user
  ordered : (rows.map (·.serverId)).Pairwise (· < ·)
  single : (rows.map (·.recordId)).Nodup

theorem rowsOf_ofOwner (h : t.Orderly) : RowsOf t user (t.ofOwner user) := by
  constructor
  · intro r
    rw [Tables.ofOwner, List.mem_filter, beq_iff_eq]
  · exact h.ofOwner_ordered
  · exact h.recordIds_nodup

theorem reads_tell_of_one_table (reachable : t.Reachable) (hu : IsUserId user) :
    RowsOf t user (t.ofOwner user) ∧
    Readings t user ((t.ofOwner user).map Record.descriptor)
      (((t.ofOwner user).filter (!·.deleted)).map (Record.view none)) ∧
    ∀ x : Visit, x.call.Reads → ∀ db, (x.ended db).database = db :=
  ⟨rowsOf_ofOwner (reachable_orderly reachable), readings (reachable_orderly reachable) hu,
    fun _ => reading_changes_nothing⟩

/-- Ids that come twice, are unknown or belong to a tombstone. -/
theorem sample_reads_tell_of_one_table :
    let ids : List Text := [[99], [98], [120], [99]]
    Sync.sampleTables.Reachable ∧ IsUserId 1 ∧
    Answers Sync.sampleTables (.download 1 ⟨some 1, ids, some 7⟩)
      (.records [⟨3, 1, [99], [120], [121], 0, false, ⟨0, none⟩, ⟨0, none⟩⟩]) ∧
    Answers Sync.sampleTables (.specificStates 1 ⟨some 1, ids, none⟩)
      (.states [⟨[98], [121], 1, true, some ⟨1, none⟩⟩, ⟨[99], [121], 0, false, some ⟨0, none⟩⟩]) := by
  intro ids
  have user : IsUserId 1 := ⟨by decide, by decide⟩
  have filled : ∀ recordId ∈ ids, recordId.Filled := by decide
  obtain ⟨_, readings, _⟩ := reads_tell_of_one_table Sync.sampleTables_reachable user
  refine ⟨Sync.sampleTables_reachable, user, ?_, ?_⟩
  · exact readings.download ids (some 7) (by decide) filled
  · exact readings.specificStates ids none (by decide) filled

end Vault

end Strongbox
