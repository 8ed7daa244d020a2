import Strongbox.Proofs.Schema.Reading
import Strongbox.Proofs.Timestamp
import Strongbox.Schema.Body

/-!
# Descriptors that are read back

The written form of a descriptor is checked to be the same descriptor, whether it comes out of a document or is a
value already; and so are lists of descriptors, and what holds them.
-/

namespace Strongbox

open Schema

/-- A descriptor whose texts can be encoded, whose version is short, and whose time has a date and no zone. -/
structure Descriptor.Legible (d : Descriptor) : Prop where
  recordId : d.recordId.Encodable
  hash : d.hash.Encodable
  version : (Text.ofNat d.version.natAbs).length ≤ Text.digitLimit
  updatedAt : ∃ wall, d.updatedAt = some ⟨wall, none⟩ ∧ Timestamp.isDated wall = true

theorem Schema.optional_text (check : Json → Checked α) (t : Text) :
    optional check (.text t) = (check (.text t)).map some := rfl

theorem Schema.time_toText (origin : Origin) {wall : Int} (h : Timestamp.isDated wall = true) :
    time origin (.text (Timestamp.toText ⟨wall, none⟩)) = .ok ⟨wall, none⟩ := by
  have encodable : decide (Timestamp.toText ⟨wall, none⟩).Encodable = true :=
    decide_eq_true (Utf8.encodable_of_ascii (Timestamp.ascii_toText h))
  simp only [time, encodable, Timestamp.read?_toText h, Bool.not_true, Bool.false_eq_true, if_false]
  exact if_pos h

namespace Descriptor

variable {d : Descriptor} {states : List Descriptor}

def members (d : Descriptor) : List (Text × Json) :=
  [(Text.ofString "client_side_id", .text d.recordId), (Text.ofString "hash", .text d.hash),
    (Text.ofString "version", .int d.version), (Text.ofString "deleted", .bool d.deleted),
    (Text.ofString "updated_at", Json.ofOption Json.ofTime d.updatedAt)]

theorem updatedAt_members (origin : Origin) (h : d.Legible) :
    field "updated_at" none (optional (time origin)) d.members = .ok d.updatedAt := by
  obtain ⟨wall, ht, dated⟩ := h.updatedAt
  have found : Json.lookup? (Text.ofString "updated_at") d.members = some (Json.ofOption Json.ofTime d.updatedAt) := rfl
  simp only [field, found, ht, Json.ofOption, Json.ofTime, optional_text, time_toText origin dated]
  rfl

theorem check_toJson (origin : Origin) (h : d.Legible) : check origin d.toJson = .ok d := by
  have written : d.toJson = .object d.members := rfl
  have recordId : required "client_side_id" text d.members = .ok d.recordId := rfl
  have hash : required "hash" text d.members = .ok d.hash := rfl
  have version : required "version" int d.members = .ok d.version := rfl
  have deleted : field "deleted" false bool d.members = .ok d.deleted := rfl
  simp only [check, modelOrAttributes, written, recordId, hash, version, deleted, updatedAt_members origin h]
  rfl

theorem exact_toJson (h : d.Legible) : Json.Exact 1 d.toJson := by
  obtain ⟨wall, ht, dated⟩ := h.updatedAt
  have time : Json.Exact 0 (Json.ofOption Json.ofTime d.updatedAt) := by
    rw [ht]
    exact .text (Utf8.encodable_of_ascii (Timestamp.ascii_toText dated))
  refine Json.exact_record ["client_side_id", "hash", "version", "deleted", "updated_at"] rfl (by decide) (by decide) ?_
  simp only [List.forall_mem_cons, List.not_mem_nil, false_implies, implies_true, and_true]
  exact ⟨.text h.recordId, .text h.hash, .int h.version, .bool, time⟩

theorem list_toJson (origin : Origin) (h : ∀ d ∈ states, d.Legible) :
    list (check origin) (.array (states.map toJson)) = .ok states :=
  list_map fun d hd => check_toJson origin (h d hd)

theorem exact_states (h : ∀ d ∈ states, d.Legible) : Json.Exact 2 (.array (states.map toJson)) :=
  .array (List.forall_mem_map.mpr fun d hd => exact_toJson (h d hd))

/-- The descriptor has a written form in bytes, and is read back from them: out of the document, or out of the value
that any reader of the document gets. -/
def Survives (d : Descriptor) : Prop :=
  ∃ form, Utf8.encode? d.toJson.toText = some form ∧ document (check .document) form = .ok d ∧
    ∃ v, Json.parseLenient form = .ok v ∧ check .value v = .ok d

theorem Legible.survives (h : d.Legible) : d.Survives := by
  obtain ⟨form, encoded, strict⟩ := Json.parseStrict_toText (by decide) (exact_toJson h)
  have lenient : Json.parseLenient form = .ok d.toJson := Json.parseLenient_of_parseStrict strict
  have read : document (check .document) form = .ok d := document_ok.mpr ⟨_, strict, check_toJson .document h⟩
  exact ⟨form, encoded, read, d.toJson, lenient, check_toJson .value h⟩

end Descriptor

/-- The members that a comparison needs, whatever others there are. -/
theorem Comparison.check_members (origin : Origin) {members : List (Text × Json)} {user : Int} {states : List Descriptor}
    (named : Json.lookup? (Text.ofString "user_id") members = some (.int user))
    (listed : Json.lookup? (Text.ofString "states") members = some (.array (states.map Descriptor.toJson)))
    (h : ∀ d ∈ states, d.Legible) : check origin (.object members) = .ok ⟨some user, states⟩ := by
  simp only [check, model, field, named, listed, Descriptor.list_toJson origin h]
  rfl

theorem Comparison.exact_toJson {user : Int} {states : List Descriptor}
    (short : (Text.ofNat user.natAbs).length ≤ Text.digitLimit) (h : ∀ d ∈ states, d.Legible) :
    Json.Exact 3 (toJson ⟨some user, states⟩) := by
  refine Json.exact_record ["user_id", "states"] rfl (by decide) (by decide) ?_
  simp only [List.forall_mem_cons, List.not_mem_nil, false_implies, implies_true, and_true]
  exact ⟨.int short, Descriptor.exact_states h⟩

/-- A listing can be written down however long it is, but is read back only if its length can be. -/
theorem Listing.printable_toJson {states : List Descriptor} (h : ∀ d ∈ states, d.Legible) :
    Json.Printable (ofStates states).toJson := by
  refine Json.printable_record ["states", "length"] rfl (by decide) ?_
  simp only [List.forall_mem_cons, List.not_mem_nil, false_implies, implies_true, and_true]
  exact ⟨(Descriptor.exact_states h).printable, .int⟩

theorem Listing.exact_toJson {states : List Descriptor} (h : ∀ d ∈ states, d.Legible)
    (short : (Text.ofNat states.length).length ≤ Text.digitLimit) : Json.Exact 3 (ofStates states).toJson := by
  refine Json.exact_record ["states", "length"] rfl (by decide) (by decide) ?_
  simp only [List.forall_mem_cons, List.not_mem_nil, false_implies, implies_true, and_true]
  exact ⟨Descriptor.exact_states h, .int short⟩

theorem Plan.printable_empty : Json.Printable (toJson {}) := by
  refine Json.printable_record ["download", "upload", "update", "delete_client", "delete_server"] rfl (by decide) ?_
  simp only [List.forall_mem_cons, List.not_mem_nil, false_implies, implies_true, and_true]
  have empty : Json.Printable (.array (List.map Descriptor.toJson [])) := .array (List.forall_mem_nil _)
  exact ⟨empty, empty, empty, empty, empty⟩

end Strongbox
