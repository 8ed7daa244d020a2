import Strongbox.Proofs.Schema.Descriptors
import Strongbox.Proofs.Vault.Success

/-!
# Records that can be written down

What an accepted deed brings could be bound by the store, and its time was read off the clock. So the states of the
records that such deeds lead to have a written form: their texts can be encoded, their versions are short, and their
times have a date.
-/

namespace Strongbox

open Store

structure Record.Legible (r : Record) : Prop where
  recordId : r.recordId.Filled
  hash : r.hash.Encodable
  counted : 0 ≤ r.version
  /-- A write names a version that the store can hold, and makes it one higher. -/
  small : r.version ≤ 0x8000000000000000
  dated : Timestamp.isDated r.updatedAt = true

theorem Record.Legible.descriptor {r : Record} (h : r.Legible) : r.descriptor.Legible := by
  have counted := h.counted
  have small := h.small
  constructor
  · exact h.recordId.encodable
  · exact h.hash
  · exact Text.short_of_held (by dsimp only [Record.descriptor]; omega) small
  · exact ⟨r.updatedAt, rfl, h.dated⟩

namespace Vault

structure Deed.Legible (d : Deed) : Prop where
  dated : Timestamp.isDated d.now = true
  recordId : d.act.recordId.Filled
  hash : ∀ payload hash, d.act.contents? = some (payload, hash) → hash.Encodable
  small : ∀ version, d.act.version = some version → version < 0x8000000000000000

section Rows

variable {d : Deed} {rows : List Record} {deeds : List Deed}

theorem Deed.Legible.added (h : d.Legible) {item : NewRecord} (ha : d.act = .create item) :
    (Deed.added rows d item).Legible := by
  have recordId := h.recordId
  have hash := h.hash item.payload item.hash
  rw [ha] at recordId hash
  constructor
  · exact recordId
  · exact hash rfl
  · exact Int.le_refl 0
  · exact (by decide : (0 : Int) ≤ 0x8000000000000000)
  · exact h.dated

theorem Deed.Legible.rewrite (h : d.Legible) {r : Record} (legible : r.Legible) (hit : d.hits r = true) :
    (d.rewrite r).Legible := by
  obtain ⟨_, named, _⟩ := Deed.hits_iff.mp hit
  have small := h.small r.version named
  have counted := legible.counted
  cases ha : d.act with
  | create item =>
    simp only [Deed.rewrite, ha]
    exact legible
  | amend item =>
    simp only [Deed.rewrite, ha, Amendment.apply]
    cases hc : item.contents with
    | none => exact ⟨legible.recordId, legible.hash, by dsimp only; omega, by dsimp only; omega, h.dated⟩
    | some contents =>
      have hash := h.hash contents.1 contents.2 (by rw [ha]; exact hc)
      exact ⟨legible.recordId, hash, by dsimp only; omega, by dsimp only; omega, h.dated⟩

theorem Deed.Legible.perform (h : d.Legible) (legible : ∀ r ∈ rows, r.Legible) : ∀ r ∈ Deed.perform rows d, r.Legible := by
  intro r hr
  cases creation : d.act.isCreation with
  | true =>
    obtain ⟨item, ha⟩ := Deed.isCreation_iff.mp creation
    rw [Deed.perform_create ha] at hr
    rcases List.mem_append.mp hr with hr | hr
    · exact legible r hr
    · rw [List.mem_singleton.mp hr]
      exact h.added ha
  | false =>
    rw [Deed.perform_eq_map creation] at hr
    obtain ⟨before, hb, rfl⟩ := List.mem_map.mp hr
    by_cases hit : d.hits before = true
    · rw [if_pos hit]
      exact h.rewrite (legible before hb) hit
    · rw [if_neg hit]
      exact legible before hb

end Rows

variable {caller now : Int}

theorem upload_legible {request : Upload} {views : List RecordView} (h : (upload caller now request).MayYield views) :
    ∀ d ∈ Deed.batch caller now .create request.items, d.Legible := by
  obtain ⟨_, _, dated, _, passed, hbody⟩ := opening_mayYield h
  obtain ⟨rows, hinsert, _⟩ := Routine.mayYield_bind hbody
  obtain ⟨taken, _, hrest⟩ := Routine.mayYield_bind hinsert
  cases taken with
  | some recordId => cases hrest
  | none =>
    obtain ⟨_, hadd, _⟩ := Routine.mayYield_bind hrest
    obtain ⟨t, reply, t', hrun, _⟩ := hadd
    obtain ⟨_, bound, _⟩ := map_eq_ok.mp hrun
    obtain ⟨_, storable⟩ := insertion_bound_iff.mp bound
    intro d hd
    obtain ⟨item, hi, rfl⟩ := List.mem_map.mp hd
    have complete := (checkUpload_eq_ok.mp passed).1 item hi
    constructor
    · exact dated
    · exact ⟨complete.recordId, (storable item hi).recordId⟩
    · intro _ _ contents
      cases contents
      exact (storable item hi).hash
    · intro version named
      cases named

theorem amend_legible {missing verb : String} {named : Option Int} {items : List Amendment}
    (h : (amend missing verb caller now named items).MayYield ()) :
    ∀ d ∈ Deed.batch caller now .amend items, d.Legible := by
  obtain ⟨_, _, dated, checked, hcheck, hbody⟩ := opening_mayYield h
  obtain ⟨same, passed⟩ := checkEach_ok hcheck
  intro d hd
  obtain ⟨item, hi, rfl⟩ := List.mem_map.mp hd
  rw [← same] at hi
  obtain ⟨p, hp, rfl⟩ := List.mem_map.mp hi
  obtain ⟨complete, version⟩ := passed p hp
  obtain ⟨count, hwrite⟩ := amendEach_mayYield hbody hp
  have bound := Routine.mayYield_writing hwrite
  obtain ⟨_, contents, bound⟩ := bind_eq_ok.mp bound
  obtain ⟨_, _, bound⟩ := bind_eq_ok.mp bound
  obtain ⟨_, recordId, held⟩ := bind_eq_ok.mp bound
  constructor
  · exact dated
  · exact ⟨complete.recordId, bindText_eq_ok.mp recordId⟩
  · exact fun payload hash brought => (bindContents_eq_ok.mp contents payload hash brought).2
  · intro other same
    cases version.symm.trans same
    exact (bindInt_eq_ok.mp held).2

theorem Batch.Proper.legible {batch : Batch} (proper : batch.Proper caller) (dated : Timestamp.isDated now = true) :
    ∀ d ∈ (batch.call caller).deeds now, d.Legible := by
  have amended : ∀ items : List Amendment, (∀ item ∈ items, item.Proper) →
      ∀ d ∈ Deed.batch caller now .amend items, d.Legible := by
    intro items proper d hd
    obtain ⟨item, hi, rfl⟩ := List.mem_map.mp hd
    have own := proper item hi
    obtain ⟨version, named, seen⟩ := own.version
    constructor
    · exact dated
    · exact own.recordId
    · exact fun payload hash brought => (own.contents payload hash brought).2.encodable
    · intro other same
      cases named.symm.trans same
      exact seen.small
  intro d hd
  cases batch with
  | upload request =>
    obtain ⟨item, hi, rfl⟩ := List.mem_map.mp hd
    have own := proper.2.2 item hi
    constructor
    · exact dated
    · exact own.recordId
    · intro _ _ contents
      cases contents
      exact own.hash.encodable
    · exact nofun
  | update request => exact amended _ (List.forall_mem_map.mpr proper.2.2) d hd
  | delete request => exact amended _ (List.forall_mem_map.mpr proper.2.2) d hd

theorem Call.legible {call : Call} {answer : Answer} (h : (call.routine now).MayYield answer) :
    ∀ d ∈ call.deeds now, d.Legible := by
  cases call with
  | upload caller request =>
    obtain ⟨views, hviews, _⟩ := Routine.mayYield_bind h
    exact upload_legible hviews
  | update caller request =>
    obtain ⟨_, hdone, _⟩ := Routine.mayYield_bind h
    exact amend_legible hdone
  | delete caller request =>
    obtain ⟨_, hdone, _⟩ := Routine.mayYield_bind h
    exact amend_legible hdone
  | _ =>
    intro d hd
    cases hd

end Vault

end Strongbox
