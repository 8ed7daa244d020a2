import Strongbox.Proofs.Store.Interference
import Strongbox.Proofs.Vault.Deeds
import Strongbox.Vault.Batch

/-!
# Accepted batches

A batch that ends well names the caller, and did all of its deeds, each on the rows that the one before it
left. Each was enabled there. This is so whatever others did before its first write.
-/

namespace Strongbox

open Store

structure NewRecord.Complete (item : NewRecord) : Prop where
  recordId : item.recordId.blank = false
  payload : item.payload ≠ []
  hash : item.hash.blank = false

structure Amendment.Complete (item : Amendment) : Prop where
  recordId : item.recordId.blank = false
  contents : ∀ payload hash, item.contents = some (payload, hash) → payload ≠ [] ∧ hash.blank = false
  version : ∃ version, item.version = some version ∧ 0 ≤ version

abbrev Revision.Complete (item : Revision) : Prop := item.amendment.Complete

abbrev Removal.Complete (item : Removal) : Prop := item.amendment.Complete

theorem Revision.complete_iff {item : Revision} : item.Complete ↔ item.recordId.blank = false ∧
    (item.payload ≠ [] ∧ item.hash.blank = false) ∧ ∃ version, item.version = some version ∧ 0 ≤ version := by
  constructor
  · intro h
    exact ⟨h.recordId, h.contents _ _ rfl, h.version⟩
  · rintro ⟨recordId, contents, version⟩
    refine ⟨recordId, ?_, version⟩
    rintro _ _ ⟨⟩
    exact contents

theorem Guard.authorize_ok {caller owner : Int} {named : Option Int}
    (h : Guard.authorize caller named = .ok owner) : named = some caller ∧ owner = caller := by
  unfold Guard.authorize at h
  split at h
  · cases h
  · split at h
    · cases h
    · split at h
      · rename_i hu
        cases h
        exact ⟨by rw [hu], rfl⟩
      · cases h

theorem Guard.ownerFor_lands {P : Tables → Tables → Prop} {caller : Int} {named : Option Int}
    {f : Int → Routine α} (h : named = some caller → (f caller).Lands P) :
    (ownerFor caller named >>= f).Lands P := by
  unfold ownerFor
  split
  · rename_i owner ha
    obtain ⟨hn, rfl⟩ := authorize_ok ha
    exact h hn
  · split <;> trivial
  · trivial

theorem Guard.ownerFor_mayYield {caller owner : Int} {named : Option Int}
    (h : (Guard.ownerFor caller named).MayYield owner) :
    Guard.ownerFor caller named = pure caller ∧ owner = caller := by
  unfold Guard.ownerFor at h ⊢
  split
  · rename_i user ha
    obtain ⟨_, rfl⟩ := authorize_ok ha
    rw [ha] at h
    cases h
    exact ⟨rfl, rfl⟩
  · rename_i e user ha
    simp only [ha] at h
    split at h
    · cases h
    · cases h
  · rename_i e _ ha
    simp only [ha] at h
    cases h

theorem Clock.read_ok {now time : Int} (h : Clock.read now = .ok time) :
    Timestamp.isDated now = true ∧ time = now := by
  unfold Clock.read at h
  split at h
  · rename_i dated
    cases h
    exact ⟨dated, rfl⟩
  · cases h

namespace Vault

theorem firstBroken_eq_ok {conditions : List (Bool × VaultError)} :
    firstBroken conditions = .ok () ↔ ∀ c ∈ conditions, c.1 = true := by
  have none : conditions.find? (fun c => !c.1) = none ↔ ∀ c ∈ conditions, c.1 = true := by
    simp [List.find?_eq_none]
  rw [← none, firstBroken]
  cases conditions.find? fun c => !c.1 with
  | none => simp
  | some c => simp

theorem checkNew_eq_ok {index : Nat} {item : NewRecord} : checkNew index item = .ok () ↔ item.Complete := by
  rw [checkNew, firstBroken_eq_ok]
  constructor
  · intro h
    simp only [List.forall_mem_cons, Bool.not_eq_true', List.isEmpty_eq_false_iff] at h
    exact ⟨h.1, h.2.1, h.2.2.1⟩
  · intro h
    simp [h.recordId, h.payload, h.hash]

/-- An upload passes its checks if its items are filled in, and no id comes twice. -/
theorem checkUpload_eq_ok {index : Nat} {seen : List Text} {items : List NewRecord} :
    checkUpload index seen items = .ok () ↔ (∀ item ∈ items, item.Complete) ∧
      (items.map (·.recordId)).Nodup ∧ ∀ item ∈ items, item.recordId ∉ seen := by
  induction items generalizing index seen with
  | nil => exact ⟨fun _ => ⟨nofun, List.nodup_nil, nofun⟩, fun _ => rfl⟩
  | cons item rest ih =>
    have step : checkUpload index seen (item :: rest) = .ok () ↔ item.Complete ∧ item.recordId ∉ seen ∧
        checkUpload (index + 1) (item.recordId :: seen) rest = .ok () := by
      constructor
      · intro h
        obtain ⟨_, filled, h⟩ := bind_eq_ok.mp h
        split at h
        · cases h
        · rename_i unseen
          exact ⟨checkNew_eq_ok.mp filled, unseen, h⟩
      · rintro ⟨filled, unseen, h⟩
        exact bind_eq_ok.mpr ⟨(), checkNew_eq_ok.mpr filled, (if_neg unseen).trans h⟩
    have new : (∀ other ∈ rest, other.recordId ∉ item.recordId :: seen) ↔
        item.recordId ∉ rest.map (·.recordId) ∧ ∀ other ∈ rest, other.recordId ∉ seen := by
      simp only [List.mem_cons, not_or, List.mem_map, not_exists, not_and, forall_and]
    rw [step, ih, new, List.forall_mem_cons, List.forall_mem_cons, List.map_cons, List.nodup_cons]
    constructor
    · rintro ⟨filled, unseen, others, nodup, once, fresh⟩
      exact ⟨⟨filled, others⟩, ⟨once, nodup⟩, unseen, fresh⟩
    · rintro ⟨⟨filled, others⟩, ⟨once, nodup⟩, unseen, fresh⟩
      exact ⟨filled, unseen, others, nodup, once, fresh⟩

theorem namedVersion_eq_ok {index : Nat} {named : Option Int} {version : Int} :
    namedVersion index named = .ok version ↔ named = some version ∧ 0 ≤ version := by
  cases named with
  | none => simp [namedVersion]
  | some n =>
    by_cases negative : n < 0
    · simp [namedVersion, negative]
      omega
    · simp [namedVersion, negative]
      omega

theorem checkContents_eq_ok {index : Nat} {contents : Option (Text × Text)} : checkContents index contents = .ok () ↔
    ∀ payload hash, contents = some (payload, hash) → payload ≠ [] ∧ hash.blank = false := by
  cases contents with
  | none => exact ⟨fun _ => nofun, fun _ => rfl⟩
  | some pair =>
    have filled : checkContents index (some pair) = .ok () ↔ pair.1 ≠ [] ∧ pair.2.blank = false := by
      simp [checkContents, firstBroken_eq_ok]
    rw [filled]
    constructor
    · rintro h _ _ ⟨⟩
      exact h
    · intro h
      exact h pair.1 pair.2 rfl

theorem checkAmendment_eq_ok {index : Nat} {item : Amendment} {version : Int} :
    checkAmendment index item = .ok version ↔ item.Complete ∧ item.version = some version := by
  have hid : firstBroken [(!item.recordId.blank, emptyField index "client_side_id")] = .ok () ↔
      item.recordId.blank = false := by
    simp [firstBroken_eq_ok]
  constructor
  · intro h
    obtain ⟨_, named, h⟩ := bind_eq_ok.mp h
    obtain ⟨n, counted, h⟩ := bind_eq_ok.mp h
    obtain ⟨_, contents, h⟩ := bind_eq_ok.mp h
    cases h
    obtain ⟨hv, counted⟩ := namedVersion_eq_ok.mp counted
    exact ⟨⟨hid.mp named, checkContents_eq_ok.mp contents, _, hv, counted⟩, hv⟩
  · rintro ⟨⟨named, contents, n, hn, counted⟩, hv⟩
    cases hn.symm.trans hv
    rw [checkAmendment, hid.mpr named, namedVersion_eq_ok.mpr ⟨hv, counted⟩, checkContents_eq_ok.mpr contents]
    rfl

/-- The checked items are those of the batch, filled in, each with the version that it names. -/
theorem checkEach_ok {index : Nat} {items : List Amendment} {checked : List (Amendment × Int)}
    (h : checkEach index items = .ok checked) :
    checked.map (·.1) = items ∧ ∀ p ∈ checked, p.1.Complete ∧ p.1.version = some p.2 := by
  induction items generalizing index checked with
  | nil =>
    cases h
    exact ⟨rfl, fun _ hp => nomatch hp⟩
  | cons item rest ih =>
    obtain ⟨version, hv, h⟩ := bind_eq_ok.mp h
    obtain ⟨others, ho, h⟩ := bind_eq_ok.mp h
    cases h
    obtain ⟨hm, hn⟩ := ih ho
    refine ⟨by rw [List.map_cons, hm], ?_⟩
    intro p hp
    rcases List.mem_cons.mp hp with rfl | hp
    · exact checkAmendment_eq_ok.mp hv
    · exact hn p hp

theorem ofCheck_lands {P : Tables → Tables → Prop} {check : Except VaultError β} {f : β → Routine α}
    (h : ∀ x, check = .ok x → (f x).Lands P) : (ofCheck check >>= f).Lands P := by
  cases check with
  | error e => trivial
  | ok x => exact h x rfl

/-- How every batch begins: its owner is found, its items are checked, and the clock is read. -/
theorem opening_lands {P : Tables → Tables → Prop} {caller now : Int} {named : Option Int} {empty : Bool}
    {e : VaultError} {check : Except VaultError β} {body : Int → β → Int → Routine α}
    (h : named = some caller → ∀ items, check = .ok items → (body caller items now).Lands P) :
    (do
      let owner ← Guard.ownerFor caller named
      if empty then .reject e
      else do
        let items ← ofCheck check
        let now ← Routine.ofOutcome (Clock.read now)
        body owner items now : Routine α).Lands P := by
  refine Guard.ownerFor_lands fun hn => ?_
  cases empty with
  | true => trivial
  | false =>
    refine ofCheck_lands fun items hc => Routine.landsAs_ofOutcome fun time ht => ?_
    rw [(Clock.read_ok ht).2]
    exact h hn items hc

/-- A batch that may be accepted passed all that. -/
theorem opening_mayYield {caller now : Int} {named : Option Int} {empty : Bool} {e : VaultError}
    {check : Except VaultError β} {body : Int → β → Int → Routine α} {x : α}
    (h : (do
      let owner ← Guard.ownerFor caller named
      if empty then .reject e
      else do
        let items ← ofCheck check
        let now ← Routine.ofOutcome (Clock.read now)
        body owner items now : Routine α).MayYield x) :
    Guard.ownerFor caller named = pure caller ∧ empty = false ∧ Timestamp.isDated now = true ∧
      ∃ items, check = .ok items ∧ (body caller items now).MayYield x := by
  obtain ⟨owner, howner, checked⟩ := Routine.mayYield_bind h
  obtain ⟨owned, rfl⟩ := Guard.ownerFor_mayYield howner
  cases he : empty with
  | true =>
    rw [he] at checked
    cases checked
  | false =>
    rw [he] at checked
    obtain ⟨items, hcheck, timed⟩ := Routine.mayYield_bind checked
    obtain ⟨time, htime, rest⟩ := Routine.mayYield_bind timed
    obtain ⟨dated, rfl⟩ := Clock.read_ok (Routine.mayYield_ofOutcome htime)
    exact ⟨owned, rfl, dated, items, mapError_eq_ok.mp (Routine.mayYield_ofOutcome hcheck), rest⟩

/-- The writes of a batch that may be accepted could all be executed. -/
theorem amendEach_mayYield {owner now : Int} {items : List (Amendment × Int)} {f : Unit → Routine β} {x : β}
    (h : (amendEach owner now items >>= f).MayYield x) {p : Amendment × Int} (hp : p ∈ items) :
    ∃ count, (Routine.statement (amendRecord owner now p.1 p.2)).MayYield count := by
  obtain ⟨_, hwrites, _⟩ := Routine.mayYield_bind h
  clear h
  induction items with
  | nil => cases hp
  | cons q rest ih =>
    obtain ⟨count, hwrite, hrest⟩ := Routine.mayYield_bind hwrites
    rcases List.mem_cons.mp hp with rfl | hp
    · exact ⟨count, hwrite⟩
    · dsimp only at hrest
      split at hrest
      · obtain ⟨_, _, hlater⟩ := Routine.mayYield_bind hrest
        exact ih hp hlater
      · exact ih hp hrest

/-- The explanation of a write that found no record is always a rejection. -/
theorem explain_ne_ok {owner version : Int} {recordId : Text} {s s' : Session} :
    (explain owner recordId version).eval s ≠ .ok ((), s') := by
  intro h
  obtain ⟨found, s₁, _, h⟩ := Routine.eval_bind_ok.mp h
  cases found with
  | none => cases h
  | some r =>
    by_cases hd : r.deleted = true
    · simp only [hd, if_true] at h
      cases h
    · simp only [hd, Bool.false_eq_true, if_false] at h
      cases h

def Accepts (caller : Int) (named : Option Int) (deeds : List Deed) (t u : Tables) : Prop :=
  named = some caller ∧ Deed.AllEnabled t.records deeds ∧
    u = { t with records := Deed.performAll t.records deeds }

theorem hits_eq_writable {d : Deed} {version : Int} (hv : d.act.version = some version) :
    d.hits = Tables.writable d.owner d.act.recordId version := by
  funext r
  simp only [Deed.hits, Tables.writable, hv, Option.some_beq_some]
  rw [BEq.comm]

theorem amend_eq {owner now version : Int} {item : Amendment} (hv : item.version = some version) (t : Tables) :
    let d : Deed := ⟨owner, now, .amend item⟩
    t.amend owner now item version = (t.records.countP d.hits, { t with records := d.perform t.records }) := by
  intro d
  rw [Deed.perform_eq_map rfl, hits_eq_writable (d := d) hv]
  rfl

/-- Executing the statement performs the deed, and rows are counted only if the deed is enabled. -/
theorem amendRecord_does {owner now version : Int} {item : Amendment} (hv : item.version = some version)
    {s s' : Session} {n : Nat} (h : s.execute (amendRecord owner now item version) = .ok (n, s')) :
    let d : Deed := ⟨owner, now, .amend item⟩
    ∃ t, s.visible = some t ∧ s'.visible = some { t with records := d.perform t.records } ∧
      (n ≠ 0 → d.Enabled t.records) := by
  intro d
  obtain ⟨t, hs, _, _, hn, rfl⟩ := execute_writing_ok.mp h
  rw [amend_eq hv] at hn
  refine ⟨t, hs, ?_, ?_⟩
  · simp only [Session.visible]
    rw [amend_eq hv]
  · intro hne
    rw [hn] at hne
    exact (Deed.enabled_write rfl).mpr (List.countP_pos_iff.mp (Nat.pos_of_ne_zero hne))

/-- Amendments one after the other that all find their records do the deeds. -/
theorem amendEach_ok {owner now : Int} {items : List (Amendment × Int)}
    (versions : ∀ p ∈ items, p.1.version = some p.2) {s s' : Session} {t : Tables} (hs : s.visible = some t)
    (h : (amendEach owner now items).eval s = .ok ((), s')) :
    let deeds := Deed.batch owner now .amend (items.map (·.1))
    Deed.AllEnabled t.records deeds ∧
      s'.visible = some { t with records := Deed.performAll t.records deeds } := by
  induction items generalizing s t with
  | nil =>
    cases h
    exact ⟨trivial, hs⟩
  | cons p rest ih =>
    obtain ⟨n, s₁, hx, h⟩ := Routine.eval_bind_ok.mp h
    rw [Routine.eval_statement] at hx
    obtain ⟨t', hs', hv, he⟩ := amendRecord_does (versions p List.mem_cons_self) hx
    rw [hs] at hs'
    cases hs'
    by_cases hn : n = 0
    · simp only [hn, if_true] at h
      obtain ⟨_, s₂, hc, _⟩ := Routine.eval_bind_ok.mp h
      exact absurd hc explain_ne_ok
    · simp only [hn, if_false] at h
      obtain ⟨ha, hf⟩ := ih (fun q hq => versions q (List.mem_cons_of_mem _ hq)) hv h
      exact ⟨⟨he hn, ha⟩, hf⟩

theorem amend_lands (missing verb : String) (caller now : Int) (named : Option Int) (items : List Amendment) :
    (amend missing verb caller now named items).Lands (Accepts caller named (Deed.batch caller now .amend items)) := by
  refine opening_lands fun hn checked hc => ?_
  obtain ⟨same, passed⟩ := checkEach_ok hc
  cases checked with
  | nil =>
    cases same
    exact fun t => ⟨hn, trivial, rfl⟩
  | cons p rest =>
    refine Routine.landsAs_of_delivers rfl rfl fun t x s' hx => ?_
    obtain ⟨_, s₁, hx, hsay⟩ := Routine.eval_bind_ok.mp hx
    cases hsay
    obtain ⟨ha, hs⟩ := amendEach_ok (fun q hq => (passed q hq).2) rfl hx
    rw [same] at ha hs
    exact ⟨_, hs, hn, ha, rfl⟩

/-- Creations one after the other add the rows of all items. -/
theorem performAll_create (owner now : Int) (rows : List Record) (items : List NewRecord) :
    Deed.performAll rows (Deed.batch owner now .create items) =
      rows ++ Tables.rowsFor owner now (Tables.nextId (rows.map (·.serverId))) items := by
  induction items generalizing rows with
  | nil => simp [Deed.performAll, Deed.batch, Tables.rowsFor]
  | cons item rest ih =>
    have next : Tables.nextId ((Deed.perform rows ⟨owner, now, .create item⟩).map (·.serverId)) =
        Tables.nextId (rows.map (·.serverId)) + 1 := by
      simpa [Deed.perform, Record.fresh] using Tables.nextId_append (rows.map (·.serverId))
    simp only [Deed.batch, List.map_cons, Deed.performAll, List.foldl_cons] at ih ⊢
    rw [ih, next]
    simp [Deed.perform, Tables.rowsFor]

theorem allEnabled_create {owner now : Int} {rows : List Record} {items : List NewRecord}
    (nodup : (items.map (·.recordId)).Nodup)
    (free : ∀ item ∈ items, Record.ofKey owner item.recordId rows = []) :
    Deed.AllEnabled rows (Deed.batch owner now .create items) := by
  induction items generalizing rows with
  | nil => trivial
  | cons item rest ih =>
    obtain ⟨hne, nodup⟩ := List.nodup_cons.mp nodup
    refine ⟨free item List.mem_cons_self, ih nodup fun other ho => ?_⟩
    have differs : (⟨owner, now, .create item⟩ : Deed).isOf owner other.recordId = false := by
      refine Bool.eq_false_iff.mpr fun he => hne (List.mem_map.mpr ⟨other, ho, ?_⟩)
      exact (Deed.isOf_iff.mp he).2.symm
    exact (Deed.ofKey_other differs).trans (free other (List.mem_cons_of_mem _ ho))

/-- Rows are inserted only if no item has a record yet, and they are the rows of all items. -/
theorem insertRecords?_eq_some {t t' : Tables} {owner now : Int} {items : List NewRecord}
    {rows : List Record} (h : t.insertRecords? owner now items = some (rows, t')) :
    (∀ item ∈ items, Record.ofKey owner item.recordId t.records = []) ∧
      t' = { t with records := Deed.performAll t.records (Deed.batch owner now .create items) } := by
  unfold Tables.insertRecords? at h
  split at h
  · cases h
  · rename_i hfree
    cases h
    refine ⟨fun item hi => ?_, by rw [performAll_create]⟩
    have hnone : ¬ (t.find? owner item.recordId).isSome = true := fun hs =>
      hfree (List.any_eq_true.mpr ⟨item, hi, hs⟩)
    simpa [Tables.find?_eq_head?, List.head?_eq_none_iff] using hnone

/-- The insertion finds for itself whether an id is taken; what the lookup before it found does not matter. -/
theorem insertBatch_lands {caller now : Int} {named : Option Int} (hn : named = some caller)
    {items : List NewRecord} (nodup : (items.map (·.recordId)).Nodup) (f : List Record → Text)
    (g : List Record → α) :
    (insertBatch caller now items >>= fun rows => do
      .say .info logger (f rows)
      pure (g rows)).Lands (Accepts caller named (Deed.batch caller now .create items)) := by
  refine Routine.landsAs_reading fun t => ?_
  cases t.taken? caller (items.map (·.recordId)) with
  | some id => trivial
  | none =>
    refine Routine.landsAs_of_delivers rfl rfl fun t x s' hx => ?_
    obtain ⟨rows, s₁, hx, hend⟩ := Routine.eval_bind_ok.mp hx
    cases hend
    -- the answer of the lookup comes first
    obtain ⟨_, _, hlookup, hx⟩ := Routine.eval_bind_ok.mp hx
    cases hlookup
    obtain ⟨inserted, s₂, hi, h⟩ := Routine.eval_bind_ok.mp hx
    rw [Routine.eval_statement, insertRecords, execute_forObjects] at hi
    obtain ⟨t', hs', _, _, hr, rfl⟩ := execute_writing_ok.mp hi
    cases hs'
    cases hins : t.insertRecords? caller now items with
    | none =>
      rw [hins] at hr
      cases hr
      cases h
    | some done =>
      rw [hins] at hr
      cases hr
      cases h
      obtain ⟨free, hd⟩ := insertRecords?_eq_some hins
      refine ⟨done.2, ?_, hn, allEnabled_create nodup free, hd⟩
      simp only [Session.visible]
      rw [hins]

theorem upload_lands (caller now : Int) (request : Upload) : (upload caller now request).Lands
    (Accepts caller request.userId (Deed.batch caller now .create request.items)) :=
  opening_lands fun hn _ hc => insertBatch_lands hn (checkUpload_eq_ok.mp hc).2.1 _ _

end Vault

end Strongbox
