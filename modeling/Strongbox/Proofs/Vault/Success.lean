import Strongbox.Proofs.Schema.Reading
import Strongbox.Proofs.Store.Solo
import Strongbox.Proofs.Vault.Replay
import Strongbox.Proofs.Vault.Runs

/-!
# When calls succeed

A batch that is filled in, from a user who names itself, succeeds where all of its deeds are enabled, unless
it is stopped or the store breaks.
-/

namespace Strongbox

open Store

structure Text.Filled (t : Text) : Prop where
  nonblank : t.blank = false
  encodable : t.Encodable

instance (t : Text) : Decidable t.Filled :=
  decidable_of_iff (t.blank = false ∧ t.Encodable) ⟨fun ⟨h, k⟩ => ⟨h, k⟩, fun ⟨h, k⟩ => ⟨h, k⟩⟩

structure IsVersion (version : Int) : Prop where
  counted : 0 ≤ version
  small : version < 0x8000000000000000

structure IsUserId (user : Int) : Prop where
  positive : 0 < user
  small : user < 0x8000000000000000

structure NewRecord.Proper (item : NewRecord) : Prop where
  recordId : item.recordId.Filled
  payload : item.payload ≠ [] ∧ item.payload.Encodable
  hash : item.hash.Filled

theorem NewRecord.Proper.complete {item : NewRecord} (h : item.Proper) : item.Complete :=
  ⟨h.recordId.nonblank, h.payload.1, h.hash.nonblank⟩

theorem NewRecord.Proper.storable {item : NewRecord} (h : item.Proper) : item.Storable :=
  ⟨h.recordId.encodable, h.payload.2, h.hash.encodable⟩

structure Amendment.Proper (item : Amendment) : Prop where
  recordId : item.recordId.Filled
  contents : ∀ payload hash, item.contents = some (payload, hash) →
    (payload ≠ [] ∧ payload.Encodable) ∧ hash.Filled
  version : ∃ version, item.version = some version ∧ IsVersion version

theorem Amendment.Proper.complete {item : Amendment} (h : item.Proper) : item.Complete := by
  obtain ⟨version, hv, seen⟩ := h.version
  refine ⟨h.recordId.nonblank, ?_, version, hv, seen.counted⟩
  intro payload hash contents
  obtain ⟨hpayload, hhash⟩ := h.contents payload hash contents
  exact ⟨hpayload.1, hhash.nonblank⟩

structure Amendment.Storable (item : Amendment) : Prop where
  recordId : item.recordId.Encodable
  contents : ∀ payload hash, item.contents = some (payload, hash) → payload.Encodable ∧ hash.Encodable

theorem Amendment.Proper.storable {item : Amendment} (h : item.Proper) : item.Storable := by
  refine ⟨h.recordId.encodable, ?_⟩
  intro payload hash contents
  obtain ⟨hpayload, hhash⟩ := h.contents payload hash contents
  exact ⟨hpayload.2, hhash.encodable⟩

abbrev Revision.Proper (item : Revision) : Prop := item.amendment.Proper

abbrev Removal.Proper (item : Removal) : Prop := item.amendment.Proper

theorem Revision.proper_iff {item : Revision} : item.Proper ↔ item.recordId.Filled ∧
    ((item.payload ≠ [] ∧ item.payload.Encodable) ∧ item.hash.Filled) ∧
    ∃ version, item.version = some version ∧ IsVersion version := by
  constructor
  · intro h
    exact ⟨h.recordId, h.contents _ _ rfl, h.version⟩
  · rintro ⟨recordId, contents, version⟩
    refine ⟨recordId, ?_, version⟩
    rintro _ _ ⟨⟩
    exact contents

namespace Vault

/-- The batch names its user, and has items that are filled in. -/
def Batch.Proper (user : Int) : Batch → Prop
  | upload request =>
    request.userId = some user ∧ request.items ≠ [] ∧ ∀ item ∈ request.items, item.Proper
  | update request =>
    request.userId = some user ∧ request.items ≠ [] ∧ ∀ item ∈ request.items, item.Proper
  | delete request =>
    request.userId = some user ∧ request.entries ≠ [] ∧ ∀ item ∈ request.entries, item.Proper

/-- Nothing goes wrong around the call: it has time, nobody stops it, and the store does its work. -/
structure Visit.Calm (x : Visit) : Prop where
  timed : x.timeout.isPositive = true
  dated : Timestamp.isDated x.now = true
  unlocked : x.locked = false
  unstopped : ∀ done, x.stops done = none
  unbroken : ∀ done, x.breaks done = none

variable {user now : Int} {t : Tables} {s : Session}

theorem bindInt_user (h : IsUserId user) : bindInt user = .ok () := by
  have := h.positive
  have := h.small
  unfold bindInt
  rw [if_pos (by omega)]

theorem bindInt_version {version : Int} (h : IsVersion version) : bindInt version = .ok () := by
  have := h.counted
  have := h.small
  unfold bindInt
  rw [if_pos (by omega)]

theorem bindText_encodable {text : Text} (h : text.Encodable) : bindText text = .ok () := if_pos h

/-- The values of a statement about an owner's record. -/
theorem bound_id {owner : Int} {recordId : Text} (ho : bindInt owner = .ok ()) (hid : bindText recordId = .ok ()) :
    (do bindInt owner; bindText recordId) = .ok () := by
  rw [ho, hid]
  rfl

theorem bound_ids {owner : Int} {ids : List Text} (ho : bindInt owner = .ok ())
    (encodable : ∀ recordId ∈ ids, recordId.Encodable) : (do bindInt owner; bindTexts ids) = .ok () := by
  rw [ho, bindTexts_eq_ok.mpr encodable]
  rfl

theorem ownerFor_self (h : IsUserId user) : Guard.ownerFor user (some user) = pure user := by
  have nonzero : user ≠ 0 := by
    have := h.positive
    omega
  simp [Guard.ownerFor, Guard.authorize, nonzero]

/-- An upload that is filled in can only be refused for an id that comes twice. -/
theorem checkUpload_complete {items : List NewRecord} (h : ∀ item ∈ items, item.Complete) (index : Nat)
    (seen : List Text) : checkUpload index seen items = .ok () ∨
      ∃ recordId, checkUpload index seen items = .error (conflict recordId) ∧
        1 < (seen ++ items.map (·.recordId)).count recordId := by
  induction items generalizing index seen with
  | nil => exact .inl rfl
  | cons item rest ih =>
    have next : checkUpload index seen (item :: rest) = if item.recordId ∈ seen then
        .error (conflict item.recordId) else checkUpload (index + 1) (item.recordId :: seen) rest := by
      have filled : checkNew index item = .ok () := checkNew_eq_ok.mpr (h item List.mem_cons_self)
      exact bind_of_ok filled
    rw [next]
    by_cases first : item.recordId ∈ seen
    · refine .inr ⟨item.recordId, if_pos first, ?_⟩
      have : 0 < seen.count item.recordId := List.count_pos_iff.mpr first
      rw [List.count_append, List.map_cons, List.count_cons_self]
      omega
    · rw [if_neg first]
      have later := ih (fun other ho => h other (List.mem_cons_of_mem _ ho)) (index + 1) (item.recordId :: seen)
      have counted : ∀ recordId, (seen ++ (item :: rest).map (·.recordId)).count recordId =
          (item.recordId :: seen ++ rest.map (·.recordId)).count recordId := by
        intro recordId
        simp only [List.map_cons, List.count_append, List.count_cons]
        omega
      simpa only [counted] using later

theorem checkEach_complete {items : List Amendment} (h : ∀ item ∈ items, item.Complete) (index : Nat) :
    checkEach index items = .ok (items.map fun item => (item, item.version.getD 0)) := by
  induction items generalizing index with
  | nil => rfl
  | cons item rest ih =>
    have later := ih (fun other ho => h other (List.mem_cons_of_mem _ ho)) (index + 1)
    have complete := h item List.mem_cons_self
    obtain ⟨version, hv, _⟩ := complete.version
    rw [checkEach, checkAmendment_eq_ok.mpr ⟨complete, hv⟩, later, List.map_cons, hv]
    rfl

/-- How a batch goes on for a user that may, once its items are checked. -/
theorem opening_passed {named : Option Int} (owned : Guard.ownerFor user named = pure user)
    (dated : Timestamp.isDated now = true) {empty : Bool} (he : empty = false) {e : VaultError}
    {check : Except VaultError β} {items : β} (hc : check = .ok items) (body : Int → β → Int → Routine α) :
    (do
      let owner ← Guard.ownerFor user named
      if empty then .reject e
      else do
        let items ← ofCheck check
        let now ← Routine.ofOutcome (Clock.read now)
        body owner items now : Routine α) = body user items now := by
  have clock : Clock.read now = .ok now := if_pos dated
  subst he hc
  rw [owned, clock]
  rfl

theorem opening_eq (hu : IsUserId user) (dated : Timestamp.isDated now = true) {named : Option Int}
    (hn : named = some user) {empty : Bool} (he : empty = false) {e : VaultError}
    {check : Except VaultError β} {items : β} (hc : check = .ok items) (body : Int → β → Int → Routine α) :
    (do
      let owner ← Guard.ownerFor user named
      if empty then .reject e
      else do
        let items ← ofCheck check
        let now ← Routine.ofOutcome (Clock.read now)
        body owner items now : Routine α) = body user items now := by
  subst hn
  exact opening_passed (ownerFor_self hu) dated he hc body

/-- From this session on the call ends well, and leaves these records. -/
def Achieves (r : Routine α) (s : Session) (t : Tables) (deeds : List Deed) : Prop :=
  ∃ x s', r.eval s = .ok (x, s') ∧ s'.visible = some { t with records := Deed.performAll t.records deeds }

theorem bindContents_eq_ok {contents : Option (Text × Text)} : bindContents contents = .ok () ↔
    ∀ payload hash, contents = some (payload, hash) → payload.Encodable ∧ hash.Encodable := by
  constructor
  · rintro h payload hash rfl
    obtain ⟨_, hpayload, hhash⟩ := bind_eq_ok.mp h
    exact ⟨bindText_eq_ok.mp hpayload, bindText_eq_ok.mp hhash⟩
  · intro h
    cases contents with
    | none => rfl
    | some pair =>
      obtain ⟨hpayload, hhash⟩ := h pair.1 pair.2 rfl
      rw [bindContents, bindText_encodable hpayload, bindText_encodable hhash]
      rfl

/-- Where the deed is enabled, executing the statement performs it, and rows are counted. -/
theorem amendRecord_performs (hu : IsUserId user) {item : Amendment} (h : item.Proper) {version : Int}
    (hv : item.version = some version) (hs : s.visible = some t) (hl : s.locked = false) :
    let d : Deed := ⟨user, now, .amend item⟩
    d.Enabled t.records → ∃ (n : Nat) (s' : Session),
      s.execute (amendRecord user now item version) = .ok (n, s') ∧ n ≠ 0 ∧ s'.locked = false ∧
      s'.visible = some { t with records := d.perform t.records } := by
  intro d enabled
  obtain ⟨named, hnamed, small⟩ := h.version
  cases hnamed.symm.trans hv
  have bound : (do
      bindContents item.contents
      bindInt user
      bindText item.recordId
      bindInt version : Except Fault Unit) = .ok () := by
    rw [bindContents_eq_ok.mpr h.storable.contents, bindInt_user hu, bindText_encodable h.recordId.encodable,
      bindInt_version small]
    rfl
  obtain ⟨r, hr, hit⟩ := (Deed.enabled_write rfl).mp enabled
  refine ⟨_, _, execute_writing_ok.mpr ⟨t, hs, bound, hl, rfl, rfl⟩, ?_, hl, ?_⟩
  · rw [amend_eq hv]
    exact Nat.pos_iff_ne_zero.mp (List.countP_pos_iff.mpr ⟨r, hr, hit⟩)
  · simp only [Session.visible]
    rw [amend_eq hv]

theorem amendEach_succeeds (hu : IsUserId user) {items : List (Amendment × Int)}
    (proper : ∀ p ∈ items, p.1.Proper ∧ p.1.version = some p.2) (hs : s.visible = some t) (hl : s.locked = false)
    (enabled : Deed.AllEnabled t.records (Deed.batch user now .amend (items.map (·.1)))) :
    ∃ s', (amendEach user now items).eval s = .ok ((), s') ∧ s'.visible = some { t with
      records := Deed.performAll t.records (Deed.batch user now .amend (items.map (·.1))) } := by
  induction items generalizing s t with
  | nil => exact ⟨s, rfl, hs⟩
  | cons p rest ih =>
    obtain ⟨first, others⟩ := enabled
    obtain ⟨hp, hv⟩ := proper p List.mem_cons_self
    obtain ⟨n, s₁, hx, hn, hl₁, hs₁⟩ := amendRecord_performs hu hp hv hs hl first
    obtain ⟨s', hrest, hs'⟩ := ih (fun q hq => proper q (List.mem_cons_of_mem _ hq)) hs₁ hl₁ others
    refine ⟨s', ?_, hs'⟩
    rw [amendEach, Routine.eval_bind_ok]
    refine ⟨n, s₁, ?_, ?_⟩
    · rw [Routine.eval_statement]
      exact hx
    · simp only [hn, if_false]
      exact hrest

theorem amend_achieves (hu : IsUserId user) (dated : Timestamp.isDated now = true) {named : Option Int}
    {items : List Amendment} (hn : named = some user) (hne : items ≠ []) (proper : ∀ item ∈ items, item.Proper)
    (hs : s.visible = some t) (hl : s.locked = false)
    (enabled : Deed.AllEnabled t.records (Deed.batch user now .amend items)) (missing verb : String) :
    Achieves (amend missing verb user now named items) s t (Deed.batch user now .amend items) := by
  have checked := checkEach_complete (fun item hi => (proper item hi).complete) 0
  obtain ⟨same, passed⟩ := checkEach_ok checked
  unfold amend
  rw [opening_eq hu dated hn (List.isEmpty_eq_false_iff.mpr hne) checked]
  have each : ∀ p ∈ items.map fun item => (item, item.version.getD 0), p.1.Proper ∧ p.1.version = some p.2 := by
    intro p hp
    obtain ⟨item, hi, rfl⟩ := List.mem_map.mp hp
    exact ⟨proper item hi, (passed _ hp).2⟩
  rw [← same] at enabled
  obtain ⟨s', hx, hs'⟩ := amendEach_succeeds hu each hs hl enabled
  rw [same] at hs'
  exact ⟨(), s', Routine.eval_bind_ok.mpr ⟨(), s', hx, rfl⟩, hs'⟩

/-- Creations that may all be done have ids that differ from each other and are not in use. -/
theorem free_of_allEnabled {rows : List Record} {items : List NewRecord}
    (h : Deed.AllEnabled rows (Deed.batch user now .create items)) :
    (items.map (·.recordId)).Nodup ∧ ∀ item ∈ items, Record.ofKey user item.recordId rows = [] := by
  obtain ⟨nodup, fresh⟩ := nodup_creations h
  rw [creations_upload, keys_batch (fun _ => rfl)] at nodup fresh
  constructor
  · refine List.pairwise_map.mpr ((List.pairwise_map.mp nodup).imp ?_)
    intro item other differ same
    exact differ (Prod.ext rfl same)
  · intro item hi
    apply Record.ofKey_eq_nil_iff.mpr
    exact fresh _ (List.mem_map_of_mem hi)

/-- Choosing one of a list step by step ends with one of the list, or with the one that was there before. -/
theorem foldl_choice {choose : Option α → α → Option α} (first : ∀ a, choose none a = some a)
    (either : ∀ a b, choose (some a) b = some a ∨ choose (some a) b = some b) (list : List α)
    (start : Option α) : (list.foldl choose start = start ∧ (start = none → list = [])) ∨
      ∃ a ∈ list, list.foldl choose start = some a := by
  induction list generalizing start with
  | nil => exact .inl ⟨rfl, fun _ => rfl⟩
  | cons b rest ih =>
    rw [List.foldl_cons]
    have chosen : choose start b = some b ∨ choose start b = start ∧ start ≠ none := by
      cases start with
      | none => exact .inl (first b)
      | some a =>
        rcases either a b with same | new
        · exact .inr ⟨same, fun none => nomatch none⟩
        · exact .inl new
    rcases chosen with new | ⟨same, known⟩
    · rw [new]
      rcases ih (some b) with ⟨last, _⟩ | ⟨a, ha, last⟩
      · exact .inr ⟨b, List.mem_cons_self, last⟩
      · exact .inr ⟨a, List.mem_cons_of_mem _ ha, last⟩
    · rw [same]
      rcases ih start with ⟨last, _⟩ | ⟨a, ha, last⟩
      · exact .inl ⟨last, fun none => absurd none known⟩
      · exact .inr ⟨a, List.mem_cons_of_mem _ ha, last⟩

/-- The lookup of an upload finds one of the ids that are in use, if there are any. -/
theorem taken?_cases (owner : Int) (ids : List Text) :
    let used := ((t.ofOwner owner).map (·.recordId)).filter ids.contains
    t.taken? owner ids = none ∧ used = [] ∨ ∃ recordId ∈ used, t.taken? owner ids = some recordId := by
  intro used
  refine (foldl_choice ?_ ?_ used none).imp (fun ⟨same, empty⟩ => ⟨same, empty rfl⟩) id
  · exact fun _ => rfl
  · intro a b
    by_cases before : Text.before b a = true
    · exact .inr (if_pos before)
    · exact .inl (if_neg before)

theorem mem_taken_iff {owner : Int} {ids : List Text} {recordId : Text} :
    recordId ∈ ((t.ofOwner owner).map (·.recordId)).filter ids.contains ↔
      recordId ∈ ids ∧ ∃ r, t.find? owner recordId = some r := by
  rw [List.mem_filter, List.mem_map, List.contains_iff_mem, and_comm, Tables.find?_isSome_iff, List.mem_map]
  simp only [Tables.ofOwner, List.mem_filter, beq_iff_eq, and_assoc, Record.key, Prod.mk.injEq]

theorem taken?_eq_some {owner : Int} {ids : List Text} {recordId : Text}
    (h : t.taken? owner ids = some recordId) : recordId ∈ ids ∧ ∃ r, t.find? owner recordId = some r := by
  apply mem_taken_iff.mp
  rcases taken?_cases (t := t) owner ids with ⟨none, _⟩ | ⟨id, used, found⟩
  · cases none.symm.trans h
  · cases found.symm.trans h
    exact used

theorem taken?_eq_none_iff {owner : Int} {ids : List Text} :
    t.taken? owner ids = none ↔ ∀ recordId ∈ ids, Record.ofKey owner recordId t.records = [] := by
  have free : ∀ recordId, Record.ofKey owner recordId t.records = [] ↔
      ¬ ∃ r, t.find? owner recordId = some r := by
    intro recordId
    rw [Record.ofKey_eq_nil_iff, Tables.find?_isSome_iff]
  simp only [free]
  constructor
  · intro h recordId hid known
    have mem := mem_taken_iff.mpr ⟨hid, known⟩
    rcases taken?_cases (t := t) owner ids with ⟨_, empty⟩ | ⟨id, _, found⟩
    · rw [empty] at mem
      cases mem
    · cases found.symm.trans h
  · intro h
    cases found : t.taken? owner ids with
    | none => rfl
    | some recordId =>
      obtain ⟨hid, known⟩ := taken?_eq_some found
      exact absurd known (h recordId hid)

theorem taken?_free {items : List NewRecord}
    (free : ∀ item ∈ items, Record.ofKey user item.recordId t.records = []) :
    t.taken? user (items.map (·.recordId)) = none := by
  apply taken?_eq_none_iff.mpr
  intro recordId hid
  obtain ⟨item, hi, rfl⟩ := List.mem_map.mp hid
  exact free item hi

theorem insertRecords?_free (now : Int) {items : List NewRecord}
    (free : ∀ item ∈ items, Record.ofKey user item.recordId t.records = []) :
    ∃ rows, t.insertRecords? user now items = some (rows, { t with
      records := Deed.performAll t.records (Deed.batch user now .create items) }) := by
  have none : ¬ (items.any fun item => (t.find? user item.recordId).isSome) = true := by
    intro h
    obtain ⟨item, hi, hsome⟩ := List.any_eq_true.mp h
    rw [Tables.find?_eq_head?, free item hi] at hsome
    cases hsome
  unfold Tables.insertRecords?
  rw [if_neg none, performAll_create]
  exact ⟨_, rfl⟩

theorem lookup_bound {owner : Int} {items : List NewRecord} (ho : bindInt owner = .ok ())
    (storable : ∀ item ∈ items, item.Storable) :
    (do bindInt owner; bindTexts (items.map (·.recordId)) : Except Fault Unit) = .ok () :=
  bound_ids ho (List.forall_mem_map.mpr fun item hi => (storable item hi).recordId)

theorem insertion_bound_iff {owner : Int} {items : List NewRecord} :
    (do bindInt owner; bindTexts (items.flatMap fun i => [i.recordId, i.payload, i.hash]) : Except Fault Unit) =
      .ok () ↔ bindInt owner = .ok () ∧ ∀ item ∈ items, item.Storable := by
  have texts : (∀ text ∈ items.flatMap fun i => [i.recordId, i.payload, i.hash], text.Encodable) ↔
      ∀ item ∈ items, item.Storable := by
    rw [List.forall_mem_flatMap]
    refine forall₂_congr fun item _ => ?_
    simp only [List.forall_mem_cons]
    exact ⟨fun ⟨hid, hpayload, hhash, _⟩ => ⟨hid, hpayload, hhash⟩,
      fun h => ⟨h.recordId, h.payload, h.hash, fun _ none => nomatch none⟩⟩
  rw [← texts, ← bindTexts_eq_ok]
  cases bindInt owner with
  | error f => simp [bind, Except.bind]
  | ok u => simp [bind, Except.bind]

theorem execute_selectTaken (hu : IsUserId user) {items : List NewRecord} (proper : ∀ item ∈ items, item.Proper)
    (hs : s.visible = some t) : s.execute (selectTaken user (items.map (·.recordId))) =
      .ok (t.taken? user (items.map (·.recordId)), s) := by
  have bound := lookup_bound (bindInt_user hu) fun item hi => (proper item hi).storable
  simp only [Session.execute, hs, selectTaken, reading, bound]
  rfl

theorem execute_insertRecords (now : Int) (hu : IsUserId user) {items : List NewRecord}
    (proper : ∀ item ∈ items, item.Proper) (hs : s.visible = some t) (hl : s.locked = false) :
    s.execute (insertRecords user now items) = .ok (match t.insertRecords? user now items with
      | some (rows, u) => (some rows, { s with pending := some u })
      | none => (none, { s with pending := some t })) := by
  have bound := insertion_bound_iff.mpr ⟨bindInt_user hu, fun item hi => (proper item hi).storable⟩
  rw [insertRecords, execute_forObjects]
  simp only [Session.execute, hs, writing, bound, Except.map, hl, if_true]
  cases t.insertRecords? user now items with
  | none => rfl
  | some inserted => rfl

/-- An upload by a user that may, whose items are filled in and can be stored, adds them where they may be created. -/
theorem upload_solo (ho : bindInt user = .ok ()) (dated : Timestamp.isDated now = true) {request : Upload}
    (owned : Guard.ownerFor user request.userId = pure user) (nonempty : request.items ≠ [])
    (complete : ∀ item ∈ request.items, item.Complete) (storable : ∀ item ∈ request.items, item.Storable)
    (enabled : Deed.AllEnabled t.records (Deed.batch user now .create request.items)) :
    ∃ views, (upload user now request).solo t = .ok (views, { t with
      records := Deed.performAll t.records (Deed.batch user now .create request.items) }) := by
  obtain ⟨nodup, free⟩ := free_of_allEnabled enabled
  have checked : checkUpload 0 [] request.items = .ok () :=
    checkUpload_eq_ok.mpr ⟨complete, nodup, fun _ _ none => nomatch none⟩
  obtain ⟨rows, inserted⟩ := insertRecords?_free now free
  refine ⟨rows.map (Record.view (some 0)), ?_⟩
  unfold upload
  rw [opening_passed owned dated (List.isEmpty_eq_false_iff.mpr nonempty) checked, Routine.solo_bind, insertBatch,
    Routine.solo_bind, selectTaken, Routine.solo_reading (lookup_bound ho storable), taken?_free free,
    bind_of_ok rfl]
  dsimp only
  rw [Routine.solo_bind, insertRecords, Routine.solo_forObjects,
    Routine.solo_writing (insertion_bound_iff.mpr ⟨ho, storable⟩), inserted]
  rfl

theorem upload_achieves (hu : IsUserId user) (dated : Timestamp.isDated now = true) {request : Upload}
    (proper : Batch.Proper user (.upload request)) (hs : s.visible = some t) (hl : s.locked = false)
    (enabled : Deed.AllEnabled t.records (Deed.batch user now .create request.items)) :
    Achieves (upload user now request) s t (Deed.batch user now .create request.items) := by
  obtain ⟨hn, hne, hitems⟩ := proper
  have owned : Guard.ownerFor user request.userId = pure user := by
    rw [hn]
    exact ownerFor_self hu
  obtain ⟨views, added⟩ := upload_solo (bindInt_user hu) dated owned hne (fun item hi => (hitems item hi).complete)
    (fun item hi => (hitems item hi).storable) enabled
  obtain ⟨s', hx, hs'⟩ := Routine.eval_of_solo hs hl added
  exact ⟨views, s', hx, hs'⟩

theorem achieves_map {r : Routine α} {deeds : List Deed} (f : α → β) (h : Achieves r s t deeds) :
    Achieves (r.bind fun x => pure (f x)) s t deeds := by
  obtain ⟨x, s', hx, hs'⟩ := h
  exact ⟨f x, s', Routine.eval_bind_ok.mpr ⟨x, s', hx, rfl⟩, hs'⟩

theorem Batch.achieves (hu : IsUserId user) (dated : Timestamp.isDated now = true) {batch : Batch}
    (proper : batch.Proper user) (hs : s.visible = some t) (hl : s.locked = false)
    (enabled : Deed.AllEnabled t.records ((batch.call user).deeds now)) :
    Achieves ((batch.call user).routine now) s t ((batch.call user).deeds now) := by
  cases batch with
  | upload request => exact achieves_map _ (upload_achieves hu dated proper hs hl enabled)
  | update request => exact achieves_map _ (amend_achieves hu dated proper.1 (mt List.map_eq_nil_iff.mp proper.2.1)
      (List.forall_mem_map.mpr proper.2.2) hs hl enabled _ _)
  | delete request => exact achieves_map _ (amend_achieves hu dated proper.1 (mt List.map_eq_nil_iff.mp proper.2.1)
      (List.forall_mem_map.mpr proper.2.2) hs hl enabled _ _)

namespace Visit

variable {x : Visit}

/-- In a calm visit a call comes to what it comes to by itself. -/
theorem Calm.ended (calm : x.Calm) {answer : Answer} {s' : Session}
    (h : (x.call.routine x.now).eval { database := some t } = .ok (answer, s')) :
    (x.ended (some t)).result = .ok answer ∧ (x.ended (some t)).database = s'.visible := by
  have alone : (breaking x.stops x.breaks : Surroundings Unit).Alone := breaking_alone _ _
  rw [← calm.unlocked] at h
  exact runCall_of_eval alone calm.timed calm.unstopped calm.unbroken h

/-- In a calm visit a call is a function of the tables. -/
theorem Calm.ended_solo (calm : x.Calm) {answer : Answer} {u : Tables}
    (h : (x.call.routine x.now).solo t = .ok (answer, u)) :
    (x.ended (some t)).result = .ok answer ∧ (x.ended (some t)).database = some u := by
  obtain ⟨s', hx, hs'⟩ := Routine.eval_of_solo (s := { database := some t }) rfl rfl h
  obtain ⟨result, database⟩ := calm.ended hx
  exact ⟨result, database.trans hs'⟩

theorem Calm.ended_solo_error (calm : x.Calm) {e : Failure}
    (h : (x.call.routine x.now).solo t = .error e) :
    (x.ended (some t)).result = .error e ∧ (x.ended (some t)).database = some t := by
  have alone : (breaking x.stops x.breaks : Surroundings Unit).Alone := breaking_alone _ _
  have hx := Routine.eval_of_solo_error (s := { database := some t }) rfl rfl h
  rw [← calm.unlocked] at hx
  have failed : (x.ended (some t)).result = .error e :=
    runCall_of_eval_error alone calm.timed calm.unstopped calm.unbroken hx
  exact ⟨failed, runCall_error_database alone failed⟩

/-- A batch that is filled in succeeds, and does its deeds, where all of them are enabled. -/
theorem Calm.succeeds (calm : x.Calm) (hu : IsUserId user) {batch : Batch} (proper : batch.Proper user)
    (hx : x.call = batch.call user) (enabled : Deed.AllEnabled t.records (x.call.deeds x.now)) :
    (∃ answer, (x.ended (some t)).result = .ok answer) ∧
      (x.ended (some t)).database = some { t with records := Deed.performAll t.records (x.call.deeds x.now) } := by
  rw [hx] at enabled
  obtain ⟨answer, s', hrun, hs'⟩ :=
    Batch.achieves (s := { database := some t }) hu calm.dated proper rfl rfl enabled
  rw [← hx] at hrun hs'
  obtain ⟨result, database⟩ := calm.ended hrun
  exact ⟨⟨answer, result⟩, database.trans hs'⟩

/-- One after the other, the visits end well, and they leave this database. -/
def Succeed : Database → List Visit → Database → Prop
  | db, [], last => db = last
  | db, x :: rest, last =>
    (∃ answer, (x.ended db).result = .ok answer) ∧ Succeed (x.ended db).database rest last

theorem succeed_of_allEnabled (hu : IsUserId user) {xs : List Visit} (calm : ∀ x ∈ xs, x.Calm)
    (proper : ∀ x ∈ xs, ∃ batch : Batch, batch.Proper user ∧ x.call = batch.call user)
    (enabled : Deed.AllEnabled t.records (xs.flatMap fun x => x.call.deeds x.now)) :
    Succeed (some t) xs (some { t with
      records := Deed.performAll t.records (xs.flatMap fun x => x.call.deeds x.now) }) := by
  induction xs generalizing t with
  | nil => rfl
  | cons x rest ih =>
    rw [List.flatMap_cons, Deed.allEnabled_append] at enabled
    obtain ⟨batch, hbatch, hx⟩ := proper x List.mem_cons_self
    obtain ⟨ends, leaves⟩ := (calm x List.mem_cons_self).succeeds hu hbatch hx enabled.1
    refine ⟨ends, ?_⟩
    rw [leaves, List.flatMap_cons, Deed.performAll_append]
    exact ih (fun y hy => calm y (List.mem_cons_of_mem _ hy))
      (fun y hy => proper y (List.mem_cons_of_mem _ hy)) enabled.2

end Visit

end Vault

end Strongbox
