import Strongbox.Store.Tables

/-!
# Deeds

A deed is one item of a batch, with its owner and the time at which it is done. It creates a record, or it
names a version of one and changes it. Deeds are done one after the other, each on the rows that the one
before it left.
-/

namespace Strongbox

def Record.ofKey (owner : Int) (recordId : Text) (rows : List Record) : List Record :=
  rows.filter (isOf owner recordId)

namespace Vault

inductive Act where
  | create (item : NewRecord)
  | amend (item : Amendment)
  deriving DecidableEq, Repr

namespace Act

def recordId : Act → Text
  | create item => item.recordId
  | amend item => item.recordId

def version : Act → Option Int
  | create _ => none
  | amend item => item.version

def isCreation : Act → Bool
  | create _ => true
  | _ => false

end Act

structure Deed where
  owner : Int
  now : Int
  act : Act
  deriving DecidableEq, Repr

namespace Deed

def isOf (owner : Int) (recordId : Text) (d : Deed) : Bool :=
  d.owner == owner && d.act.recordId == recordId

def rewrite (d : Deed) (r : Record) : Record :=
  match d.act with
  | .create _ => r
  | .amend item => item.apply d.now r

/-- The deed changes the row: a live one, at the version that is named. -/
def hits (d : Deed) (r : Record) : Bool :=
  r.isOf d.owner d.act.recordId && d.act.version == some r.version && !r.deleted

/-- May the deed be done? The id of a creation must never have been used before; any other deed must change
some row. -/
def Enabled (rows : List Record) (d : Deed) : Prop :=
  if d.act.isCreation then Record.ofKey d.owner d.act.recordId rows = [] else ∃ r ∈ rows, d.hits r = true

instance (rows : List Record) (d : Deed) : Decidable (d.Enabled rows) :=
  inferInstanceAs (Decidable (if d.act.isCreation then Record.ofKey d.owner d.act.recordId rows = []
    else ∃ r ∈ rows, d.hits r = true))

def perform (rows : List Record) (d : Deed) : List Record :=
  match d.act with
  | .create item => rows ++ [.fresh (Tables.nextId (rows.map (·.serverId))) d.owner d.now item]
  | _ => rows.map fun r => if d.hits r then d.rewrite r else r

def performAll (rows : List Record) (deeds : List Deed) : List Record := deeds.foldl perform rows

def AllEnabled (rows : List Record) : List Deed → Prop
  | [] => True
  | d :: rest => d.Enabled rows ∧ AllEnabled (perform rows d) rest

instance decidableAllEnabled (rows : List Record) (deeds : List Deed) : Decidable (AllEnabled rows deeds) :=
  match deeds with
  | [] => isTrue trivial
  | d :: rest =>
    have := decidableAllEnabled (perform rows d) rest
    inferInstanceAs (Decidable (_ ∧ _))

def batch (owner now : Int) (act : α → Act) (items : List α) : List Deed :=
  items.map fun item => ⟨owner, now, act item⟩

end Deed

end Vault

namespace Amendment

variable (item : Amendment) (now : Int) (r : Record)

/-- What an amendment leaves of a row, and how it marks it. -/
theorem apply_keeps : (item.apply now r).serverId = r.serverId ∧ (item.apply now r).userId = r.userId ∧
    (item.apply now r).recordId = r.recordId ∧ (item.apply now r).createdAt = r.createdAt := by
  unfold apply
  cases item.contents with
  | none => exact ⟨rfl, rfl, rfl, rfl⟩
  | some contents => exact ⟨rfl, rfl, rfl, rfl⟩

theorem apply_stamps : (item.apply now r).version = r.version + 1 ∧ (item.apply now r).updatedAt = now := by
  unfold apply
  cases item.contents with
  | none => exact ⟨rfl, rfl⟩
  | some contents => exact ⟨rfl, rfl⟩

theorem apply_contents :
    ((item.apply now r).payload, (item.apply now r).hash) = item.contents.getD (r.payload, r.hash) ∧
      (item.apply now r).deleted = (r.deleted || item.contents.isNone) := by
  unfold apply
  cases item.contents with
  | none => exact ⟨rfl, (Bool.or_true _).symm⟩
  | some contents => exact ⟨rfl, (Bool.or_false _).symm⟩

end Amendment

namespace Record

theorem isOf_iff {owner : Int} {recordId : Text} {r : Record} :
    r.isOf owner recordId = true ↔ r.userId = owner ∧ r.recordId = recordId := by
  simp [isOf]

theorem mem_ofKey {owner : Int} {recordId : Text} {rows : List Record} {r : Record} :
    r ∈ ofKey owner recordId rows ↔ r ∈ rows ∧ r.userId = owner ∧ r.recordId = recordId := by
  simp [ofKey, isOf_iff]

end Record

namespace Tables

theorem find?_eq_head? (t : Tables) (owner : Int) (recordId : Text) :
    t.find? owner recordId = (Record.ofKey owner recordId t.records).head? := by
  simp [find?, Record.ofKey, List.head?_filter]

theorem le_foldl_max (ids : List Int) (first : Int) :
    first ≤ ids.foldl max first ∧ ∀ id ∈ ids, id ≤ ids.foldl max first := by
  induction ids generalizing first with
  | nil => exact ⟨Int.le_refl first, fun _ h => nomatch h⟩
  | cons id rest ih =>
    obtain ⟨hfirst, hrest⟩ := ih (max first id)
    have hmax : first ≤ max first id ∧ id ≤ max first id := by omega
    constructor
    · exact Int.le_trans hmax.1 hfirst
    · intro other ho
      rcases List.mem_cons.mp ho with rfl | ho
      · exact Int.le_trans hmax.2 hfirst
      · exact hrest other ho

theorem lt_nextId {ids : List Int} {id : Int} (h : id ∈ ids) : id < nextId ids := by
  have := (le_foldl_max ids 0).2 id h
  unfold nextId
  omega

theorem nextId_pos (ids : List Int) : 0 < nextId ids := by
  have := (le_foldl_max ids 0).1
  unfold nextId
  omega

theorem nextId_append (ids : List Int) : nextId (ids ++ [nextId ids]) = nextId ids + 1 := by
  have : ids.foldl max 0 ≤ ids.foldl max 0 + 1 := by omega
  simp only [nextId, List.foldl_append, List.foldl_cons, List.foldl_nil]
  rw [Int.max_eq_right this]

end Tables

/-- A rewriting of rows that keeps a property of them rewrites those that have it where they are. -/
theorem filter_map_if {p test : α → Bool} {f : α → α} (rows : List α) (hp : ∀ r, p (f r) = p r) :
    (rows.map fun r => if test r then f r else r).filter p =
      (rows.filter p).map fun r => if test r then f r else r := by
  rw [List.filter_map]
  congr 1
  apply List.filter_congr
  intro r _
  by_cases h : test r = true
  · simp [h, hp]
  · simp [h]

namespace Vault.Deed

variable {d : Deed} {rows : List Record} {o : Int} {i : Text}

theorem isOf_iff : d.isOf o i = true ↔ d.owner = o ∧ d.act.recordId = i := by
  simp [isOf]

theorem rewrite_keeps (d : Deed) (r : Record) : (d.rewrite r).serverId = r.serverId ∧
    (d.rewrite r).userId = r.userId ∧ (d.rewrite r).recordId = r.recordId ∧
    (d.rewrite r).createdAt = r.createdAt := by
  unfold rewrite
  cases d.act with
  | create item => exact ⟨rfl, rfl, rfl, rfl⟩
  | amend item => exact item.apply_keeps d.now r

@[simp] theorem isOf_rewrite (d : Deed) (r : Record) (o : Int) (i : Text) :
    (d.rewrite r).isOf o i = r.isOf o i := by
  obtain ⟨_, user, recordId, _⟩ := rewrite_keeps d r
  rw [Record.isOf, user, recordId, Record.isOf]

theorem hits_iff {r : Record} : d.hits r = true ↔
    (r.userId = d.owner ∧ r.recordId = d.act.recordId) ∧ d.act.version = some r.version ∧
      r.deleted = false := by
  simp [hits, Record.isOf_iff, and_assoc]

theorem isCreation_iff {a : Act} : a.isCreation = true ↔ ∃ item, a = .create item := by
  constructor
  · intro h
    cases a with
    | create item => exact ⟨item, rfl⟩
    | amend item => cases h
  · rintro ⟨item, rfl⟩
    rfl

theorem perform_eq_map (h : d.act.isCreation = false) :
    perform rows d = rows.map fun r => if d.hits r then d.rewrite r else r := by
  unfold perform
  cases ha : d.act with
  | create item =>
    rw [ha] at h
    cases h
  | amend item => rfl

theorem enabled_creation (h : d.act.isCreation = true) :
    d.Enabled rows ↔ Record.ofKey d.owner d.act.recordId rows = [] := by
  simp [Enabled, h]

theorem enabled_write (h : d.act.isCreation = false) :
    d.Enabled rows ↔ ∃ r ∈ rows, d.hits r = true := by
  simp [Enabled, h]

def added (rows : List Record) (d : Deed) (item : NewRecord) : Record :=
  .fresh (Tables.nextId (rows.map (·.serverId))) d.owner d.now item

theorem perform_create {item : NewRecord} (h : d.act = .create item) :
    perform rows d = rows ++ [added rows d item] := by
  unfold perform
  rw [h]
  rfl

theorem ofKey_create {item : NewRecord} (rows : List Record) (h : d.act = .create item) :
    Record.ofKey d.owner d.act.recordId (perform rows d) =
      Record.ofKey d.owner d.act.recordId rows ++ [added rows d item] := by
  have own : (added rows d item).isOf d.owner d.act.recordId = true := by
    rw [h]
    exact Record.isOf_iff.mpr ⟨rfl, rfl⟩
  rw [perform_create h, Record.ofKey, List.filter_append, List.filter_cons_of_pos own]
  rfl

theorem ofKey_creation (rows : List Record) (h : d.act.isCreation = true) :
    ∃ r, r.version = 0 ∧ r.deleted = false ∧
      Record.ofKey d.owner d.act.recordId (perform rows d) =
        Record.ofKey d.owner d.act.recordId rows ++ [r] := by
  obtain ⟨item, ha⟩ := isCreation_iff.mp h
  exact ⟨added rows d item, rfl, rfl, ofKey_create rows ha⟩

/-- Of the record that it is about, any other deed rewrites the row that it is about. -/
theorem ofKey_write (h : d.act.isCreation = false) :
    Record.ofKey d.owner d.act.recordId (perform rows d) =
      (Record.ofKey d.owner d.act.recordId rows).map fun r => if d.hits r then d.rewrite r else r := by
  rw [perform_eq_map h]
  exact filter_map_if rows fun r => isOf_rewrite d r d.owner d.act.recordId

theorem filter_perform {p : Record → Bool}
    (hp : ∀ r : Record, r.isOf d.owner d.act.recordId = true → p r = false) :
    (perform rows d).filter p = rows.filter p := by
  cases hd : d.act.isCreation with
  | true =>
    obtain ⟨item, ha⟩ := isCreation_iff.mp hd
    have hid : item.recordId = d.act.recordId := by rw [ha]; rfl
    have added := hp (.fresh (Tables.nextId (rows.map (·.serverId))) d.owner d.now item)
      (Record.isOf_iff.mpr ⟨rfl, hid⟩)
    simp [perform, ha, added]
  | false =>
    have miss : ∀ r, d.hits r = true → p r = false ∧ p (d.rewrite r) = false := by
      intro r hr
      have own : r.isOf d.owner d.act.recordId = true := Record.isOf_iff.mpr (hits_iff.mp hr).1
      exact ⟨hp r own, hp _ ((isOf_rewrite d r _ _).trans own)⟩
    rw [perform_eq_map hd]
    induction rows with
    | nil => rfl
    | cons r rest ih =>
      by_cases hr : d.hits r = true
      · simp [hr, miss r hr, ih]
      · simp [hr, List.filter_cons, ih]

theorem ofKey_other (hne : d.isOf o i = false) :
    Record.ofKey o i (perform rows d) = Record.ofKey o i rows := by
  refine filter_perform fun r hr => Bool.eq_false_iff.mpr fun hk => ?_
  obtain ⟨hu, hd⟩ := Record.isOf_iff.mp hr
  obtain ⟨ho, hi⟩ := Record.isOf_iff.mp hk
  have : d.isOf o i = true := isOf_iff.mpr ⟨hu ▸ ho, hd ▸ hi⟩
  rw [hne] at this
  cases this

/-- Deeds leave the rows of other records as they are, and in their order. -/
theorem filter_performAll {p : Record → Bool} {deeds : List Deed}
    (hp : ∀ d ∈ deeds, ∀ r : Record, r.isOf d.owner d.act.recordId = true → p r = false) :
    (performAll rows deeds).filter p = rows.filter p := by
  induction deeds generalizing rows with
  | nil => rfl
  | cons d rest ih =>
    have later : ∀ e ∈ rest, _ := fun e he => hp e (List.mem_cons_of_mem _ he)
    exact (ih later).trans (filter_perform (hp d List.mem_cons_self))

theorem ofKey_performAll {deeds : List Deed} (h : ∀ d ∈ deeds, d.isOf o i = false) :
    Record.ofKey o i (performAll rows deeds) = Record.ofKey o i rows := by
  induction deeds generalizing rows with
  | nil => rfl
  | cons d rest ih =>
    have later : ∀ e ∈ rest, e.isOf o i = false := fun e he => h e (List.mem_cons_of_mem _ he)
    exact (ih later).trans (ofKey_other (h d List.mem_cons_self))

theorem performAll_append (rows : List Record) (ds es : List Deed) :
    performAll rows (ds ++ es) = performAll (performAll rows ds) es :=
  List.foldl_append

theorem allEnabled_append {ds es : List Deed} :
    AllEnabled rows (ds ++ es) ↔ AllEnabled rows ds ∧ AllEnabled (performAll rows ds) es := by
  induction ds generalizing rows with
  | nil => simp [AllEnabled, performAll]
  | cons d rest ih => simp [AllEnabled, ih, and_assoc, performAll]

end Vault.Deed

end Strongbox
