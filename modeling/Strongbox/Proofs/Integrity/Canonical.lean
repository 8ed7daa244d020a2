import Strongbox.Integrity.Canonical
import Strongbox.Proofs.Integrity.Gate
import Strongbox.Proofs.Json.Dialects
import Strongbox.Proofs.Schema.Reading

/-!
# The authenticated form loses nothing

The bytes that the hash of a batch covers are read back as the items of the batch. So batches of one kind that
share a form are the same, and batches of two kinds share it only if both are empty.
-/

namespace Strongbox.Integrity

/-- The bytes are read back as these items, both as a strict document and as a lenient one. -/
def ReadsBack (check : Json → Schema.Checked α) (form : Bytes) (items : List α) : Prop :=
  Schema.document (Schema.list check) form = .ok items ∧
  ∃ v, Json.parseLenient form = .ok v ∧ Schema.list check v = .ok items

/-- Values that go into a form are read back out of it. -/
theorem canonical?_parsed {values : List Json} (h : ∀ v ∈ values, Json.Exact 1 v) :
    ∃ form, canonical? values = some form ∧ Json.parseStrict form = .ok (.array values) :=
  Json.parseStrict_toText (by decide) (.array h)

theorem canonical?_injective {values values' : List Json} (h : ∀ v ∈ values, Json.Exact 1 v)
    (h' : ∀ v ∈ values', Json.Exact 1 v) (same : canonical? values = canonical? values') : values = values' := by
  obtain ⟨form, made, read⟩ := canonical?_parsed h
  obtain ⟨form', made', read'⟩ := canonical?_parsed h'
  rw [made, made', Option.some.injEq] at same
  rw [same, read'] at read
  exact (Json.array.inj (Except.ok.inj read)).symm

section Items

variable {check : Json → Schema.Checked α} {write : α → Json} (reads : ∀ item, check (write item) = .ok item)
include reads

theorem list_written (items : List α) : Schema.list check (.array (items.map write)) = .ok items :=
  Schema.list_map fun item _ => reads item

theorem canonical?_reads {items : List α} (exact : ∀ item ∈ items, Json.Exact 1 (write item)) :
    ∃ form, canonical? (items.map write) = some form ∧ ReadsBack check form items := by
  obtain ⟨form, made, read⟩ := canonical?_parsed (List.forall_mem_map.mpr exact)
  refine ⟨form, made, ?_, _, Json.parseLenient_of_parseStrict read, list_written reads items⟩
  exact Schema.document_ok.mpr ⟨_, read, list_written reads items⟩

theorem canonical?_items {items items' : List α} (exact : ∀ item ∈ items ++ items', Json.Exact 1 (write item)) :
    canonical? (items.map write) = canonical? (items'.map write) ↔ items = items' := by
  constructor
  · intro same
    obtain ⟨first, second⟩ := List.forall_mem_append.mp exact
    have values := canonical?_injective (List.forall_mem_map.mpr first) (List.forall_mem_map.mpr second) same
    have read := list_written reads items
    rw [values, list_written reads items'] at read
    exact (Except.ok.inj read).symm
  · rintro rfl
    rfl

end Items

/-- A new record and a revision are told apart by how many members they have. -/
theorem newRecord_toJson_ne (item : NewRecord) (revision : Revision) : item.toJson ≠ revision.toJson := by
  intro same
  have count := congrArg List.length (Json.object.inj same)
  cases count

theorem canonical_form_loses_nothing {news news' : List NewRecord} {revisions revisions' : List Revision}
    (storable : ∀ item ∈ news ++ news', item.Storable) (legible : ∀ item ∈ revisions ++ revisions', item.Legible) :
    (∃ form, uploadForm? news = some form ∧ ReadsBack NewRecord.check form news) ∧
    (∃ form, updateForm? revisions = some form ∧ ReadsBack Revision.check form revisions) ∧
    (uploadForm? news = uploadForm? news' ↔ news = news') ∧
    (updateForm? revisions = updateForm? revisions' ↔ revisions = revisions') ∧
    (uploadForm? news = updateForm? revisions ↔ news = [] ∧ revisions = []) := by
  have exact : ∀ item ∈ news ++ news', Json.Exact 1 item.toJson := fun item hi => NewRecord.exact_toJson (storable item hi)
  have exact' : ∀ item ∈ revisions ++ revisions', Json.Exact 1 item.toJson :=
    fun item hi => Revision.exact_toJson (legible item hi)
  have first := (List.forall_mem_append.mp exact).1
  have first' := (List.forall_mem_append.mp exact').1
  refine ⟨canonical?_reads NewRecord.check_toJson first, canonical?_reads Revision.check_toJson first',
    canonical?_items NewRecord.check_toJson exact, canonical?_items Revision.check_toJson exact', ?_, ?_⟩
  · intro same
    have values := canonical?_injective (List.forall_mem_map.mpr first) (List.forall_mem_map.mpr first') same
    cases news with
    | nil => exact ⟨rfl, List.map_eq_nil_iff.mp values.symm⟩
    | cons item rest =>
      cases revisions with
      | nil => cases values
      | cons revision rest' => exact absurd (List.cons.inj values).1 (newRecord_toJson_ne item revision)
  · rintro ⟨rfl, rfl⟩
    rfl

def sampleNews : List NewRecord :=
  [⟨[34, 92, 0, 8, 31, 127, 0x1F512], Text.ofString "[null,12]", [0x2028, 47]⟩, ⟨[], [], []⟩]

def sampleRevisions : List Revision :=
  [⟨[10, 13, 9, 12], [0xE9], [], some (-123456789012345678901234567890)⟩, ⟨[34], [92, 117], [0x10FFFF], none⟩]

theorem sample_form_loses_nothing :
    (∃ form, uploadForm? sampleNews = some form ∧ ReadsBack NewRecord.check form sampleNews) ∧
    (∃ form, updateForm? sampleRevisions = some form ∧ ReadsBack Revision.check form sampleRevisions) ∧
    uploadForm? sampleNews ≠ uploadForm? sampleNews.reverse ∧
    updateForm? sampleRevisions ≠ updateForm? sampleRevisions.reverse ∧
    uploadForm? sampleNews ≠ updateForm? sampleRevisions := by
  have storable : ∀ item ∈ sampleNews ++ sampleNews.reverse, item.Storable := by
    have encodable : ∀ item ∈ sampleNews ++ sampleNews.reverse,
        item.recordId.Encodable ∧ item.payload.Encodable ∧ item.hash.Encodable := by decide
    intro item hi
    obtain ⟨recordId, payload, hash⟩ := encodable item hi
    exact ⟨recordId, payload, hash⟩
  have legible : ∀ item ∈ sampleRevisions ++ sampleRevisions.reverse, item.Legible := by
    have encodable : ∀ item ∈ sampleRevisions ++ sampleRevisions.reverse,
        item.recordId.Encodable ∧ item.payload.Encodable ∧ item.hash.Encodable ∧
          (Text.ofNat (item.version.getD 0).natAbs).length ≤ Text.digitLimit := by decide
    intro item hi
    obtain ⟨recordId, payload, hash, short⟩ := encodable item hi
    refine ⟨recordId, payload, hash, ?_⟩
    intro version hv
    rw [hv] at short
    exact short
  obtain ⟨news, revisions, ofNews, ofRevisions, kinds⟩ := canonical_form_loses_nothing storable legible
  refine ⟨news, revisions, ?_, ?_, ?_⟩
  · rw [Ne, ofNews]
    decide
  · rw [Ne, ofRevisions]
    decide
  · rw [Ne, kinds]
    decide

end Strongbox.Integrity
