import Mathlib.Data.List.Nodup
import Strongbox.Proofs.Vault.Legible

/-!
# Orderly tables

What deeds make of the records, whatever they are. The keys and the numbers are unique at every time, because a record
is created only if it is not there, and with the number after the largest one.
-/

namespace Strongbox

open Vault

structure Tables.Orderly (t : Tables) : Prop where
  keys : (t.records.map Record.key).Nodup
  numbers : t.records.Pairwise fun a b => a.serverId < b.serverId
  legible : ∀ r ∈ t.records, r.Legible

namespace Tables

def states (t : Tables) (owner : Int) : List Descriptor := (t.ofOwner owner).map Record.descriptor

variable {t : Tables} {d : Deed} {deeds : List Deed} {owner : Int}

theorem orderly_empty (users : List User) : Orderly { users } :=
  ⟨List.nodup_nil, List.Pairwise.nil, nofun⟩

theorem Orderly.perform (h : t.Orderly) (enabled : d.Enabled t.records) (legible : d.Legible) :
    Orderly { t with records := d.perform t.records } := by
  refine ⟨?_, numbers_perform h.numbers, legible.perform h.legible⟩
  rw [keys_perform]
  cases creation : d.act.isCreation with
  | true =>
    have free := (Deed.enabled_creation creation).mp enabled
    have new : d.key ∉ t.records.map Record.key := Record.ofKey_eq_nil_iff.mp free
    simp only [List.filter_cons, creation, if_true, List.filter_nil, List.map_singleton]
    rw [← List.concat_eq_append, List.nodup_concat]
    exact ⟨new, h.keys⟩
  | false =>
    simp only [List.filter_cons, creation, Bool.false_eq_true, if_false, List.filter_nil, List.map_nil, List.append_nil]
    exact h.keys

theorem Orderly.performAll (h : t.Orderly) (enabled : Deed.AllEnabled t.records deeds)
    (legible : ∀ d ∈ deeds, d.Legible) : Orderly { t with records := Deed.performAll t.records deeds } := by
  induction deeds generalizing t with
  | nil => exact h
  | cons d rest ih =>
    have first := h.perform enabled.1 (legible d List.mem_cons_self)
    exact ih first enabled.2 fun e he => legible e (List.mem_cons_of_mem d he)

theorem Orderly.single (h : t.Orderly) (owner : Int) (recordId : Text) :
    (Record.ofKey owner recordId t.records).length ≤ 1 := by
  have count := List.nodup_iff_count.mp h.keys (owner, recordId)
  rw [List.count_eq_countP, List.countP_map] at count
  rw [Record.ofKey, ← List.countP_eq_length_filter]
  refine le_trans (List.countP_mono_left ?_) count
  intro r _ hr
  exact beq_iff_eq.mpr (Record.key_eq_iff.mpr hr)

theorem Orderly.ofOwner_ordered (h : t.Orderly) : ((t.ofOwner owner).map (·.serverId)).Pairwise (· < ·) := by
  rw [List.pairwise_map]
  exact h.numbers.filter _

theorem Orderly.recordIds_nodup (h : t.Orderly) : ((t.ofOwner owner).map (·.recordId)).Nodup := by
  have keys : (t.ofOwner owner).map Record.key = ((t.ofOwner owner).map (·.recordId)).map (owner, ·) := by
    rw [List.map_map]
    apply List.map_congr_left
    intro r hr
    have own : r.userId = owner := by simpa using (List.mem_filter.mp hr).2
    rw [Record.key, own]
    rfl
  exact List.Nodup.of_map _ (keys ▸ (List.filter_sublist.map Record.key).nodup h.keys)

theorem Orderly.states_nodup (h : t.Orderly) : ((t.states owner).map (·.recordId)).Nodup := by
  rw [Tables.states, List.map_map]
  exact h.recordIds_nodup

theorem Orderly.states_legible (h : t.Orderly) :
    ∀ d ∈ t.states owner, d.Legible ∧ d.recordId.blank = false := by
  intro d hd
  obtain ⟨r, hr, rfl⟩ := List.mem_map.mp hd
  have legible := h.legible r (List.mem_filter.mp hr).1
  exact ⟨legible.descriptor, legible.recordId.nonblank⟩

end Tables

end Strongbox
