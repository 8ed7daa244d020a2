import Strongbox.Proofs.Json.Dialects
import Strongbox.Proofs.Json.RoundTrip
import Strongbox.Schema.Item

/-!
# Items that are read back

The written form of an item is checked to be the same item again, alone and inside of a list.
-/

namespace Strongbox

namespace Schema

theorem document_ok {check : Json → Checked α} {bytes : Bytes} {x : α} :
    document check bytes = .ok x ↔ ∃ v, Json.parseStrict bytes = .ok v ∧ check v = .ok x := by
  unfold document
  cases Json.parseStrict bytes with
  | error e => simp [Checked.problem]
  | ok v => simp

theorem forEach_map {check : Json → Checked α} {form : α → Json} {items : List α}
    (h : ∀ item ∈ items, check (form item) = .ok item) (i : Nat) :
    Checked.forEach check i (items.map form) = .ok items := by
  induction items generalizing i with
  | nil => rfl
  | cons item rest ih =>
    have first := h item List.mem_cons_self
    have more := ih (fun other ho => h other (List.mem_cons_of_mem item ho)) (i + 1)
    rw [List.map_cons, Checked.forEach, first, more]
    rfl

theorem list_map {check : Json → Checked α} {form : α → Json} {items : List α}
    (h : ∀ item ∈ items, check (form item) = .ok item) : list check (.array (items.map form)) = .ok items :=
  forEach_map h 0

end Schema

namespace Json

section Records

variable {members : List (String × Json)} (names : List String) (named : members.map (·.1) = names)
  (encodable : ∀ name ∈ names.map Text.ofString, name.Encodable)
include named

theorem names_record : (members.map fun (name, v) => (Text.ofString name, v)).map (·.1) = names.map Text.ofString := by
  rw [← named, List.map_map, List.map_map]
  rfl

include encodable

theorem encodable_names : ∀ m ∈ members.map fun (name, v) => (Text.ofString name, v), m.1.Encodable := by
  intro m hm
  apply encodable
  rw [← names_record names named]
  exact List.mem_map_of_mem hm

theorem printable_record (h : ∀ m ∈ members, Printable m.2) : Printable (record members) :=
  .object (encodable_names names named encodable) (List.forall_mem_map.mpr h)

/-- A record is read back if its members are, with distinct names that have encoded forms. -/
theorem exact_record {room : Nat} (distinct : (names.map Text.ofString).Nodup) (h : ∀ m ∈ members, Exact room m.2) :
    Exact (room + 1) (record members) := by
  refine .object ?_ (encodable_names names named encodable) (List.forall_mem_map.mpr h)
  rw [names_record names named]
  exact distinct

end Records

end Json

structure NewRecord.Storable (item : NewRecord) : Prop where
  recordId : item.recordId.Encodable
  payload : item.payload.Encodable
  hash : item.hash.Encodable

structure Revision.Legible (item : Revision) : Prop where
  recordId : item.recordId.Encodable
  payload : item.payload.Encodable
  hash : item.hash.Encodable
  version : ∀ version, item.version = some version → (Text.ofNat version.natAbs).length ≤ Text.digitLimit

theorem NewRecord.check_toJson (item : NewRecord) : check item.toJson = .ok item := rfl

theorem Revision.check_toJson (item : Revision) : check item.toJson = .ok item := by
  obtain ⟨recordId, payload, hash, version⟩ := item
  cases version with
  | none => rfl
  | some version => rfl

theorem NewRecord.exact_toJson {item : NewRecord} (h : item.Storable) : Json.Exact 1 item.toJson := by
  refine Json.exact_record ["client_side_id", "payload", "hash"] rfl (by decide) (by decide) ?_
  simp only [List.forall_mem_cons, List.not_mem_nil, false_implies, implies_true, and_true]
  exact ⟨.text h.recordId, .text h.payload, .text h.hash⟩

theorem Revision.exact_toJson {item : Revision} (h : item.Legible) : Json.Exact 1 item.toJson := by
  have version : Json.Exact 0 (Json.ofOption .int item.version) := by
    cases hv : item.version with
    | none => exact .null
    | some version => exact .int (h.version version hv)
  refine Json.exact_record ["client_side_id", "payload", "hash", "version"] rfl (by decide) (by decide) ?_
  simp only [List.forall_mem_cons, List.not_mem_nil, false_implies, implies_true, and_true]
  exact ⟨.text h.recordId, .text h.payload, .text h.hash, version⟩

end Strongbox
