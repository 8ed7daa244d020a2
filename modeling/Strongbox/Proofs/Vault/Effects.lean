import Strongbox.Proofs.Accounts.Enrolment
import Strongbox.Proofs.Vault.Acceptance
import Strongbox.Vault.Call

/-!
# What calls do to the records

Three calls do deeds. The others leave the records alone.
-/

namespace Strongbox.Vault

open Store

def Call.deeds (now : Int) : Call → List Deed
  | .upload caller request => Deed.batch caller now .create request.items
  | .update caller request => Deed.batch caller now .amend (request.items.map Revision.amendment)
  | .delete caller request => Deed.batch caller now .amend (request.entries.map Removal.amendment)
  | _ => []

inductive Batch where
  | upload (request : Upload)
  | update (request : Update)
  | delete (request : Deletion)
  deriving DecidableEq, Repr

def Batch.call (caller : Int) : Batch → Call
  | upload request => .upload caller request
  | update request => .update caller request
  | delete request => .delete caller request

def Batch.named : Batch → Option Int
  | upload request => request.userId
  | update request => request.userId
  | delete request => request.userId

/-- A batch that ends well did its deeds, and nothing else. -/
theorem Batch.lands (caller now : Int) (batch : Batch) : ((batch.call caller).routine now).Lands
    (Accepts caller batch.named ((batch.call caller).deeds now)) := by
  cases batch with
  | upload request => exact Routine.landsAs_map _ (upload_lands caller now request)
  | update request => exact Routine.landsAs_map _ (amend_lands _ _ caller now _ _)
  | delete request => exact Routine.landsAs_map _ (amend_lands _ _ caller now _ _)

/-- The deeds were done, each where it was enabled, and nothing else was done to the records. -/
def Effect (deeds : List Deed) (t u : Tables) : Prop :=
  Deed.AllEnabled t.records deeds ∧ u.records = Deed.performAll t.records deeds

theorem effect_refl (t : Tables) : Effect [] t t := ⟨trivial, rfl⟩

theorem effect_of_accepts {caller : Int} {named : Option Int} {deeds : List Deed} {t u : Tables}
    (h : Accepts caller named deeds t u) : Effect deeds t u := by
  obtain ⟨_, ha, rfl⟩ := h
  exact ⟨ha, rfl⟩

theorem effect_append {ds es : List Deed} {s t u : Tables} (h : Effect ds s t) (k : Effect es t u) :
    Effect (ds ++ es) s u := by
  obtain ⟨hd, ht⟩ := h
  obtain ⟨he, hu⟩ := k
  rw [ht] at he hu
  exact ⟨Deed.allEnabled_append.mpr ⟨hd, he⟩, hu.trans (Deed.performAll_append _ _ _).symm⟩

section Reads

variable {P : Tables → Tables → Prop} (same : ∀ t, P t t)
include same

theorem readAll_lands (rows : Tables → Int → List Record) (form : Record → α) (caller : Int) :
    (readAll rows form caller).Lands P :=
  Routine.landsAs_ofOutcome fun _ _ => Routine.landsAs_reading fun _ => same

theorem readAmong_lands (rows : Tables → Int → List Record) (form : Record → α) (missing : String)
    (check : List Text → Except VaultError Unit) (caller : Int) (request : Selection) :
    (readAmong rows form missing check caller request).Lands P := by
  refine Guard.ownerFor_lands fun _ => ?_
  split
  · trivial
  · exact ofCheck_lands fun _ _ => Routine.landsAs_reading fun _ => same

theorem compare_lands (caller : Int) (request : Comparison) : (Sync.compare caller request).Lands P :=
  Guard.ownerFor_lands fun _ => ofCheck_lands fun _ _ => Routine.landsAs_reading fun _ => same

end Reads

theorem register_lands (random : Bytes) (request : Registration) :
    (Accounts.register random request).Lands (Effect []) := by
  apply Routine.landsAs_mono ?_ (Accounts.register_landsAs random request)
  rintro account t u ⟨user, _, _, rfl⟩
  exact ⟨trivial, rfl⟩

/-- A call that ends well did its deeds. -/
theorem Call.lands (now : Int) (call : Call) : (call.routine now).Lands (Effect (call.deeds now)) := by
  cases call with
  | upload caller request =>
    exact Routine.landsAs_mono (fun _ _ _ => effect_of_accepts) (Batch.lands caller now (.upload request))
  | update caller request =>
    exact Routine.landsAs_mono (fun _ _ _ => effect_of_accepts) (Batch.lands caller now (.update request))
  | delete caller request =>
    exact Routine.landsAs_mono (fun _ _ _ => effect_of_accepts) (Batch.lands caller now (.delete request))
  | download caller request => exact Routine.landsAs_map _ (readAmong_lands effect_refl _ _ _ _ caller request)
  | downloadAll caller => exact Routine.landsAs_map _ (readAll_lands effect_refl _ _ caller)
  | allStates caller => exact Routine.landsAs_map _ (readAll_lands effect_refl _ _ caller)
  | specificStates caller request => exact Routine.landsAs_map _ (readAmong_lands effect_refl _ _ _ _ caller request)
  | compare caller request => exact Routine.landsAs_map _ (compare_lands effect_refl caller request)
  | register random request => exact Routine.landsAs_map _ (register_lands random request)
  | login request => exact Routine.landsAs_map _ (Accounts.login_lands effect_refl request)
  | params caller => exact Routine.landsAs_map _ (Accounts.params_lands effect_refl caller)

end Strongbox.Vault
