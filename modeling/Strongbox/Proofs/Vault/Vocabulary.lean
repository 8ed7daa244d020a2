import Strongbox.Proofs.Store.Failures
import Strongbox.Proofs.Vault.Reachable
import Strongbox.Proofs.Vault.Success

/-!
# The vocabulary of failures

Calls about records fail with errors of the vault, however they fail, with one exception: an update or a deletion
may name a version that the store cannot hold. Nothing checks for that before the version is bound, and the fault
comes through.
-/

namespace Strongbox

open Store

def Vault.Call.versions : Call → List Int
  | .update _ request => request.items.filterMap (·.version)
  | .delete _ request => request.entries.filterMap (·.version)
  | _ => []

def Vault.Call.texts : Call → List Text
  | .upload _ request => request.items.flatMap fun i => [i.recordId, i.payload, i.hash]
  | .update _ request => request.items.flatMap fun i => [i.recordId, i.payload, i.hash]
  | .delete _ request => request.entries.map (·.recordId)
  | .download _ request => request.recordIds
  | .specificStates _ request => request.recordIds
  | .compare _ request => request.states.flatMap fun s => [s.recordId, s.hash]
  | _ => []

/-- An error of the vault, or the overflow of one of these versions. -/
def Failure.Expected (versions : List Int) (e : Failure) : Prop :=
  (∃ v, e = .vault v) ∨ e = .fault .overflow ∧ ∃ version ∈ versions, 0x8000000000000000 ≤ version

theorem Failure.expected_vault (versions : List Int) (v : VaultError) : (Failure.vault v).Expected versions :=
  .inl ⟨v, rfl⟩

variable {P : Failure → Prop} {caller now : Int}

theorem Guard.ownerFor_failsOnly (vault : ∀ v, P (.vault v)) {named : Option Int} {f : Int → Routine α}
    (h : named = some caller → (f caller).FailsOnly P) : (ownerFor caller named >>= f).FailsOnly P := by
  unfold ownerFor
  cases ha : authorize caller named with
  | ok owner =>
    obtain ⟨hn, rfl⟩ := authorize_ok ha
    cases named <;> exact h hn
  | error e =>
    obtain ⟨v, rfl⟩ : ∃ v, e = .vault v := by
      unfold authorize at ha
      split at ha
      · cases ha
        exact ⟨_, rfl⟩
      · split at ha
        · cases ha
          exact ⟨_, rfl⟩
        · split at ha
          · cases ha
          · cases ha
            exact ⟨_, rfl⟩
    cases named with
    | none => exact vault v
    | some user =>
      dsimp only
      split
      · exact vault v
      · exact vault v

theorem Guard.ownerOf_failsOnly (vault : ∀ v, P (.vault v)) {f : Int → Routine α} (h : (f caller).FailsOnly P) :
    (Routine.ofOutcome (ownerOf caller) >>= f).FailsOnly P := by
  unfold ownerOf
  split
  · exact vault _
  · exact h

namespace Vault

theorem ofCheck_failsOnly (vault : ∀ v, P (.vault v)) {check : Except VaultError β} {f : β → Routine α}
    (h : ∀ x, check = .ok x → (f x).FailsOnly P) : (ofCheck check >>= f).FailsOnly P := by
  cases check with
  | error v => exact vault v
  | ok x => exact h x rfl

theorem opening_failsOnly (vault : ∀ v, P (.vault v)) (dated : Timestamp.isDated now = true) {named : Option Int}
    {empty : Bool} {e : VaultError} {check : Except VaultError β} {body : Int → β → Int → Routine α}
    (h : ∀ items, check = .ok items → (body caller items now).FailsOnly P) :
    (do
      let owner ← Guard.ownerFor caller named
      if empty then .reject e
      else do
        let items ← ofCheck check
        let now ← Routine.ofOutcome (Clock.read now)
        body owner items now : Routine α).FailsOnly P := by
  refine Guard.ownerFor_failsOnly vault fun _ => ?_
  have clock : Clock.read now = .ok now := if_pos dated
  cases empty with
  | true => exact vault e
  | false =>
    refine ofCheck_failsOnly vault fun items hc => ?_
    rw [clock]
    exact h items hc

theorem explain_failsOnly (vault : ∀ v, P (.vault v)) (hu : IsUserId caller) {recordId : Text}
    (encodable : recordId.Encodable) (version : Int) : (explain caller recordId version).FailsOnly P := by
  have bound := bound_id (bindInt_user hu) (bindText_encodable encodable)
  refine Routine.failsOnly_reading bound fun found => ?_
  cases found with
  | none => exact vault _
  | some r =>
    dsimp only
    split
    · exact vault _
    · exact vault _

theorem amendEach_failsOnly (vault : ∀ v, P (.vault v)) (hu : IsUserId caller) {items : List (Amendment × Int)}
    (encodable : ∀ p ∈ items, p.1.recordId.Encodable)
    (writes : ∀ p ∈ items, (Routine.statement (amendRecord caller now p.1 p.2)).FailsOnly P) :
    (amendEach caller now items).FailsOnly P := by
  induction items with
  | nil => trivial
  | cons p rest ih =>
    have later := ih (fun q hq => encodable q (List.mem_cons_of_mem _ hq))
      fun q hq => writes q (List.mem_cons_of_mem _ hq)
    refine Routine.failsOnly_bind (writes p List.mem_cons_self) fun count => ?_
    dsimp only
    split
    · exact Routine.failsOnly_bind (explain_failsOnly vault hu (encodable p List.mem_cons_self) _) fun _ => later
    · exact later

/-- A version that passed its check is bound, or it is too large for the store. -/
theorem version_expected {versions : List Int} {version : Int} (listed : version ∈ versions)
    (counted : 0 ≤ version) {f : Fault} (h : bindInt version = .error f) :
    (Failure.fault f).Expected versions := by
  obtain ⟨rfl, below | beyond⟩ := bindInt_error h
  · omega
  · exact .inr ⟨rfl, version, listed, beyond⟩

theorem upload_failsOnly (vault : ∀ v, P (.vault v)) (hu : IsUserId caller)
    (dated : Timestamp.isDated now = true) {request : Upload}
    (storable : ∀ item ∈ request.items, item.Storable) : (upload caller now request).FailsOnly P := by
  have ho := bindInt_user hu
  refine opening_failsOnly vault dated fun _ _ => Routine.failsOnly_bind ?_ fun rows => trivial
  refine Routine.failsOnly_reading (lookup_bound ho storable) fun taken => ?_
  cases taken with
  | some recordId => exact vault _
  | none =>
    refine Routine.failsOnly_bind (Routine.failsOnly_writing fun f hf => ?_) fun inserted => ?_
    · rw [insertion_bound_iff.mpr ⟨ho, storable⟩] at hf
      cases hf
    · cases inserted with
      | some rows => trivial
      | none => exact vault _

theorem amend_failsOnly (hu : IsUserId caller) (dated : Timestamp.isDated now = true) {items : List Amendment}
    (storable : ∀ item ∈ items, item.Storable) (missing verb : String) (named : Option Int) :
    (amend missing verb caller now named items).FailsOnly
      (Failure.Expected (items.filterMap (·.version))) := by
  have vault := Failure.expected_vault (items.filterMap (·.version))
  refine opening_failsOnly vault dated fun checked hc => ?_
  obtain ⟨same, passed⟩ := checkEach_ok hc
  have listed : ∀ p ∈ checked, p.1 ∈ items := fun p hp => same ▸ List.mem_map_of_mem hp
  refine Routine.failsOnly_bind (amendEach_failsOnly vault hu ?_ ?_) fun _ => trivial
  · exact fun p hp => (storable p.1 (listed p hp)).recordId
  · intro p hp
    obtain ⟨hid, contents⟩ := storable p.1 (listed p hp)
    obtain ⟨complete, named⟩ := passed p hp
    -- the check refused a version below zero, so the only one that cannot be bound is too large
    obtain ⟨version, hv, counted⟩ := complete.version
    cases hv.symm.trans named
    refine Routine.failsOnly_writing fun f hf => ?_
    rw [bindContents_eq_ok.mpr contents, bindInt_user hu, bindText_encodable hid] at hf
    exact version_expected (List.mem_filterMap.mpr ⟨p.1, listed p hp, named⟩) counted hf

theorem readAll_failsOnly (vault : ∀ v, P (.vault v)) (hu : IsUserId caller) (rows : Tables → Int → List Record)
    (form : Record → α) : (readAll rows form caller).FailsOnly P :=
  Guard.ownerOf_failsOnly vault (Routine.failsOnly_reading (bindInt_user hu) fun _ => trivial)

theorem readAmong_failsOnly (vault : ∀ v, P (.vault v)) (hu : IsUserId caller) (rows : Tables → Int → List Record)
    (form : Record → α) (missing : String) (check : List Text → Except VaultError Unit) {request : Selection}
    (encodable : ∀ recordId ∈ request.recordIds, recordId.Encodable) :
    (readAmong rows form missing check caller request).FailsOnly P := by
  refine Guard.ownerFor_failsOnly vault fun _ => ?_
  split
  · exact vault _
  · refine ofCheck_failsOnly vault fun _ _ => ?_
    exact Routine.failsOnly_reading (bound_ids (bindInt_user hu) encodable) fun _ => trivial

theorem compare_failsOnly (vault : ∀ v, P (.vault v)) (hu : IsUserId caller) (request : Comparison) :
    (Sync.compare caller request).FailsOnly P := by
  refine Guard.ownerFor_failsOnly vault fun _ => ofCheck_failsOnly vault fun _ _ => ?_
  exact Routine.failsOnly_reading (bindInt_user hu) fun _ => trivial

theorem failsOnly_answer {r : Routine α} (h : r.FailsOnly P) (f : α → Answer) :
    (r.bind fun x => pure (f x)).FailsOnly P :=
  Routine.failsOnly_bind h fun _ => trivial

/-- However a call about records fails by itself, it is with an error of the vault, or with the overflow of a
version that it names. -/
theorem Call.failsOnly {call : Call} (hcall : call.user? = some caller) (hu : IsUserId caller)
    (dated : Timestamp.isDated now = true) (texts : ∀ text ∈ call.texts, text.Encodable) :
    (call.routine now).FailsOnly (Failure.Expected call.versions) := by
  have vault := Failure.expected_vault call.versions
  cases call with
  | upload user request =>
    cases hcall
    refine failsOnly_answer (upload_failsOnly vault hu dated fun item hi => ?_) _
    simp only [Call.texts, List.forall_mem_flatMap, List.forall_mem_cons] at texts
    obtain ⟨hid, hpayload, hhash, _⟩ := texts item hi
    exact ⟨hid, hpayload, hhash⟩
  | update user request =>
    cases hcall
    have versions : request.items.filterMap (·.version) =
        (request.items.map Revision.amendment).filterMap (·.version) := by
      rw [List.filterMap_map]
      rfl
    rw [Call.versions, versions]
    refine failsOnly_answer (amend_failsOnly hu dated (List.forall_mem_map.mpr fun item hi => ?_) _ _ _) _
    simp only [Call.texts, List.forall_mem_flatMap, List.forall_mem_cons] at texts
    obtain ⟨hid, hpayload, hhash, _⟩ := texts item hi
    refine ⟨hid, ?_⟩
    rintro _ _ ⟨⟩
    exact ⟨hpayload, hhash⟩
  | delete user request =>
    cases hcall
    have versions : request.entries.filterMap (·.version) =
        (request.entries.map Removal.amendment).filterMap (·.version) := by
      rw [List.filterMap_map]
      rfl
    rw [Call.versions, versions]
    refine failsOnly_answer (amend_failsOnly hu dated (List.forall_mem_map.mpr fun entry hi => ?_) _ _ _) _
    exact ⟨List.forall_mem_map.mp texts entry hi, nofun⟩
  | download user request =>
    cases hcall
    exact failsOnly_answer (readAmong_failsOnly vault hu _ _ _ _ texts) _
  | downloadAll user =>
    cases hcall
    exact failsOnly_answer (readAll_failsOnly vault hu _ _) _
  | allStates user =>
    cases hcall
    exact failsOnly_answer (readAll_failsOnly vault hu _ _) _
  | specificStates user request =>
    cases hcall
    exact failsOnly_answer (readAmong_failsOnly vault hu _ _ _ _ texts) _
  | compare user request =>
    cases hcall
    exact failsOnly_answer (compare_failsOnly vault hu request) _
  | register random request => cases hcall
  | login request => cases hcall
  | params user => cases hcall

/-- Whatever a user with a possible number asks for about records, in texts that have encoded forms: where the store
breaks down and calls are stopped with errors of the vault, the call succeeds or fails with one, unless it names a
version that the store cannot hold. -/
theorem failures_in_vocabulary {x : Visit} (hx : x.call.user? = some caller) (hu : IsUserId caller)
    (dated : Timestamp.isDated x.now = true) (texts : ∀ text ∈ x.call.texts, text.Encodable)
    (stops : ∀ done f, x.stops done = some f → ∃ v, f = .vault v)
    (breaks : ∀ done f, x.breaks done = some f → ∃ v, f = .vault v) (db : Database) {e : Failure}
    (h : (x.ended db).result = .error e) : e.Expected x.call.versions := by
  have vault := Failure.expected_vault x.call.versions
  refine (Call.failsOnly hx hu dated texts).runCall (vault _) (vault _) ?_ ?_ h
  · exact fun done f hf => .inl (stops done f hf)
  · exact fun done f hf => .inl (breaks done f hf)

def sampleUser : User := ⟨1, [97], [98], [99]⟩

/-- The time is over after the lookup of an upload. -/
theorem interrupted_upload_in_vocabulary :
    let x : Visit :=
      { call := .upload 1 { userId := some 1, items := [⟨[97], [98], [99]⟩] }, now := 7, timeout := .finite false 5 0
        stops := fun done => if done = 1 then some cancelled else none }
    (x.call.user? = some 1 ∧ IsUserId 1 ∧ Timestamp.isDated x.now = true ∧ (∀ text ∈ x.call.texts, text.Encodable) ∧
      (∀ done f, x.stops done = some f → ∃ v, f = .vault v) ∧
      ∀ done f, x.breaks done = some f → ∃ v, f = .vault v) ∧
    (x.ended (some { users := [sampleUser] })).result = .error cancelled ∧ cancelled.Expected x.call.versions := by
  intro x
  have user : IsUserId 1 := ⟨by decide, by decide⟩
  have texts : ∀ text ∈ x.call.texts, text.Encodable := by decide
  have stops : ∀ done f, x.stops done = some f → ∃ v, f = .vault v := by
    intro done f hf
    simp only [x] at hf
    split at hf
    · cases hf
      exact ⟨_, rfl⟩
    · cases hf
  have breaks : ∀ done f, x.breaks done = some f → ∃ v, f = .vault v := fun _ _ hf => nomatch hf
  have ended : (x.ended (some { users := [sampleUser] })).result = .error cancelled := rfl
  exact ⟨⟨rfl, user, rfl, texts, stops, breaks⟩, ended,
    failures_in_vocabulary rfl user rfl texts stops breaks _ ended⟩

/-- A version that the store cannot hold passes the checks of an update, and its binding ends the call with a fault. -/
theorem huge_version_overflows :
    let x : Visit :=
      { call := .update 1 { userId := some 1, items := [⟨[97], [98], [99], some 0x8000000000000000⟩] }
        now := 7, timeout := .finite false 5 0 }
    Tables.Reachable { users := [sampleUser] } ∧ IsUserId 1 ∧ x.Calm ∧ (∀ text ∈ x.call.texts, text.Encodable) ∧
      (x.ended (some { users := [sampleUser] })).result = .error (.fault .overflow) := by
  intro x
  have texts : ∀ text ∈ x.call.texts, text.Encodable := by decide
  exact ⟨⟨_, [], rfl⟩, ⟨by decide, by decide⟩, ⟨rfl, rfl, rfl, fun _ => rfl, fun _ => rfl⟩, texts, rfl⟩

end Vault

end Strongbox
