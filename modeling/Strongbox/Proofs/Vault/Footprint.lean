import Strongbox.Proofs.Store.Likeness
import Strongbox.Proofs.Vault.Replay
import Strongbox.Proofs.Vault.Runs

/-!
# Footprints

A batch looks at the records of its own keys alone, and not at their numbers. On tables that are the same at
these keys it comes to the same, and they are so afterwards. The records of other keys it leaves as they are.
-/

namespace Strongbox

def Record.unnumbered (r : Record) : Record := { r with serverId := 0 }

def RecordView.unnumbered (v : RecordView) : RecordView := { v with serverId := 0 }

def Tables.onKeys (K : Int × Text → Bool) (t : Tables) : List Record :=
  (t.records.filter fun r => K r.key).map Record.unnumbered

namespace Vault

def Answer.unnumbered : Answer → Answer
  | .records views => .records (views.map RecordView.unnumbered)
  | answer => answer

open Store

def SameOn (K : Int × Text → Bool) (t t' : Tables) : Prop := t.onKeys K = t'.onKeys K

variable {K : Int × Text → Bool} {owner : Int} {t t' : Tables}

theorem find?_onKeys {recordId : Text} (covered : K (owner, recordId) = true) (t : Tables) :
    (t.find? owner recordId).map Record.unnumbered = (t.onKeys K).find? (Record.isOf owner recordId) := by
  rw [Tables.onKeys, List.find?_map, List.find?_filter, Tables.find?]
  congr 2
  funext r
  rw [Bool.eq_iff_iff, decide_eq_true_eq]
  constructor
  · intro own
    rw [Record.key_eq_iff.mpr own]
    exact ⟨covered, own⟩
  · rintro ⟨_, own⟩
    exact own

theorem isSome_find? {recordId : Text} (covered : K (owner, recordId) = true) (h : SameOn K t t') :
    (t.find? owner recordId).isSome = (t'.find? owner recordId).isSome := by
  have := congrArg (fun rows => (rows.find? (Record.isOf owner recordId)).isSome) h
  simpa [← find?_onKeys covered] using this

/-- The ids in use among those that are looked up are those of rows with covered keys. -/
theorem used_onKeys {ids : List Text} (covered : ∀ recordId ∈ ids, K (owner, recordId) = true) (t : Tables) :
    ((t.ofOwner owner).map (·.recordId)).filter ids.contains =
      ((t.onKeys K).filter fun r => r.userId == owner && ids.contains r.recordId).map (·.recordId) := by
  rw [Tables.onKeys, Tables.ofOwner, List.filter_map, List.filter_map, List.filter_filter, List.filter_filter,
    List.map_map]
  congr 1
  apply List.filter_congr
  intro r _
  rw [Bool.eq_iff_iff]
  simp only [Function.comp_apply, Bool.and_eq_true, beq_iff_eq, List.contains_iff_mem, Record.unnumbered]
  constructor
  · rintro ⟨listed, rfl⟩
    exact ⟨⟨rfl, listed⟩, covered _ listed⟩
  · rintro ⟨⟨own, listed⟩, _⟩
    exact ⟨listed, own⟩

theorem taken?_congr {ids : List Text} (covered : ∀ recordId ∈ ids, K (owner, recordId) = true)
    (h : SameOn K t t') : t.taken? owner ids = t'.taken? owner ids := by
  unfold Tables.taken?
  rw [used_onKeys covered t, used_onKeys covered t', h]

theorem rowsFor_unnumbered (owner now first first' : Int) (items : List NewRecord) :
    (Tables.rowsFor owner now first items).map Record.unnumbered =
      (Tables.rowsFor owner now first' items).map Record.unnumbered := by
  induction items generalizing first first' with
  | nil => rfl
  | cons item rest ih =>
    simp only [Tables.rowsFor, List.map_cons]
    rw [ih (first + 1) (first' + 1)]
    rfl

theorem onKeys_rowsFor {items : List NewRecord} (covered : ∀ item ∈ items, K (owner, item.recordId) = true)
    (now first : Int) : ((Tables.rowsFor owner now first items).filter fun r => K r.key) =
      Tables.rowsFor owner now first items := by
  induction items generalizing first with
  | nil => rfl
  | cons item rest ih =>
    have own : K (Record.fresh first owner now item).key = true := covered item List.mem_cons_self
    have later := ih fun other ho => covered other (List.mem_cons_of_mem _ ho)
    simp only [Tables.rowsFor, List.filter_cons, own, if_true, later]

theorem sameOn_insert {items : List NewRecord} (covered : ∀ item ∈ items, K (owner, item.recordId) = true)
    (h : SameOn K t t') (now : Int) :
    Option.Rel (fun a b => a.1.map Record.unnumbered = b.1.map Record.unnumbered ∧ SameOn K a.2 b.2)
      (t.insertRecords? owner now items) (t'.insertRecords? owner now items) := by
  have taken : (items.any fun item => (t.find? owner item.recordId).isSome) =
      items.any fun item => (t'.find? owner item.recordId).isSome := by
    rw [Bool.eq_iff_iff, List.any_eq_true, List.any_eq_true]
    refine exists_congr fun item => and_congr_right fun hi => ?_
    rw [isSome_find? (covered item hi) h]
  unfold Tables.insertRecords?
  rw [taken]
  split
  · exact .none
  -- the next number depends on the rows of all keys, so the new rows agree without their numbers only
  · have rows := rowsFor_unnumbered owner now (Tables.nextId (t.records.map (·.serverId)))
      (Tables.nextId (t'.records.map (·.serverId))) items
    refine .some ⟨rows, ?_⟩
    unfold SameOn Tables.onKeys at h ⊢
    simp only [List.filter_append, List.map_append, onKeys_rowsFor covered]
    rw [h, rows]

/-- A change of some of these records, which does not look at their numbers. -/
theorem sameOn_change (h : SameOn K t t') {test : Record → Bool} {f : Record → Record}
    (own : ∀ r, test r = true → K r.key = true) (htest : ∀ r : Record, test r.unnumbered = test r)
    (hkey : ∀ r, (f r).key = r.key) (hf : ∀ r : Record, (f r).unnumbered = f r.unnumbered) :
    (t.change test f).1 = (t'.change test f).1 ∧ SameOn K (t.change test f).2 (t'.change test f).2 := by
  have count : ∀ t : Tables, (t.change test f).1 = (t.onKeys K).countP test := by
    intro t
    simp only [Tables.change, Tables.onKeys, List.countP_map, List.countP_filter]
    congr 1
    funext r
    rw [Bool.eq_iff_iff]
    simpa [htest] using own r
  have seen : ∀ t : Tables, (t.change test f).2.onKeys K =
      (t.onKeys K).map fun r => if test r then f r else r := by
    intro t
    unfold Tables.change Tables.onKeys
    rw [filter_map_if t.records fun r => by rw [hkey r], List.map_map, List.map_map]
    congr 1
    funext r
    by_cases hr : test r = true
    · simp [hr, htest, hf]
    · simp [hr, htest]
  unfold SameOn at h ⊢
  rw [count t, count t', seen t, seen t', h]
  exact ⟨rfl, rfl⟩

theorem writable_covered {recordId : Text} {version : Int} (covered : K (owner, recordId) = true) (r : Record)
    (h : Tables.writable owner recordId version r = true) : K r.key = true := by
  simp only [Tables.writable, Bool.and_eq_true] at h
  rw [Record.key_eq_iff.mpr h.1.1]
  exact covered

theorem selectTaken_keeps {ids : List Text} (covered : ∀ recordId ∈ ids, K (owner, recordId) = true) :
    (selectTaken owner ids).Keeps (SameOn K) Eq :=
  keeps_reading fun _ _ h => taken?_congr covered h

theorem insertRecords_keeps {items : List NewRecord} (covered : ∀ item ∈ items, K (owner, item.recordId) = true)
    (now : Int) : (insertRecords owner now items).Keeps (SameOn K) fun rows rows' =>
      Option.Rel (fun a b => a.map Record.unnumbered = b.map Record.unnumbered) rows rows' := by
  refine keeps_writing fun t t' h => ?_
  have inserted := sameOn_insert covered h now
  generalize t.insertRecords? owner now items = x at inserted
  generalize t'.insertRecords? owner now items = x' at inserted
  cases inserted with
  | none => exact ⟨.none, h⟩
  | some hs => exact ⟨.some hs.1, hs.2⟩

theorem unnumbered_apply (item : Amendment) (now : Int) (r : Record) :
    (item.apply now r).unnumbered = item.apply now r.unnumbered := by
  unfold Amendment.apply
  cases item.contents with
  | none => rfl
  | some contents => rfl

theorem amendRecord_keeps {item : Amendment} (covered : K (owner, item.recordId) = true) (now version : Int) :
    (amendRecord owner now item version).Keeps (SameOn K) Eq :=
  keeps_writing fun _ _ h =>
    sameOn_change h (writable_covered covered) (fun _ => rfl) (item.key_apply now) (unnumbered_apply item now)

theorem selectRecord_keeps {recordId : Text} (covered : K (owner, recordId) = true) :
    (selectRecord owner recordId).Keeps (SameOn K)
      fun r r' => r.map Record.unnumbered = r'.map Record.unnumbered := by
  refine keeps_reading fun t t' h => ?_
  rw [find?_onKeys covered, find?_onKeys covered, h]

section Like

variable {S : Tables → Tables → Prop} {R : α → α → Prop} {caller now : Int}

theorem ownerFor_like {named : Option Int} {f f' : Int → Routine α}
    (h : named = some caller → (f caller).Like S R (f' caller)) :
    (Guard.ownerFor caller named >>= f).Like S R (Guard.ownerFor caller named >>= f') := by
  unfold Guard.ownerFor
  split
  · rename_i owner ha
    obtain ⟨hn, rfl⟩ := Guard.authorize_ok ha
    exact h hn
  · split
    · exact .note _ _ (.finish (.error _))
    · exact .finish (.error _)
  · exact .finish (.error _)

theorem ofCheck_like {check : Except VaultError β} {f f' : β → Routine α}
    (h : ∀ x, check = .ok x → (f x).Like S R (f' x)) :
    (ofCheck check >>= f).Like S R (ofCheck check >>= f') :=
  Routine.like_ofOutcome fun x hx => h x (mapError_eq_ok.mp hx)

/-- Batches begin alike on any tables. -/
theorem opening_like {named : Option Int} {empty : Bool} {e : VaultError} {check : Except VaultError β}
    {body : Int → β → Int → Routine α}
    (h : named = some caller → ∀ items time, check = .ok items →
      (body caller items time).Like S R (body caller items time)) :
    let routine : Routine α := do
      let owner ← Guard.ownerFor caller named
      if empty then .reject e
      else do
        let items ← ofCheck check
        let now ← Routine.ofOutcome (Clock.read now)
        body owner items now
    routine.Like S R routine := by
  refine ownerFor_like fun hn => ?_
  split
  · exact Routine.like_reject e
  · exact ofCheck_like fun items hc => Routine.like_ofOutcome fun time _ => h hn items time hc

end Like

def SameRows (rows rows' : List Record) : Prop := rows.map Record.unnumbered = rows'.map Record.unnumbered

def SameViews (views views' : List RecordView) : Prop :=
  views.map RecordView.unnumbered = views'.map RecordView.unnumbered

def SameAnswer (a a' : Answer) : Prop := a.unnumbered = a'.unnumbered

theorem sameViews_of_sameRows {rows rows' : List Record} (offset : Option Int) (h : SameRows rows rows') :
    SameViews (rows.map (Record.view offset)) (rows'.map (Record.view offset)) := by
  have views : ∀ rows : List Record, (rows.map (Record.view offset)).map RecordView.unnumbered =
      (rows.map Record.unnumbered).map fun r => (r.view offset).unnumbered := by
    intro rows
    simp [Record.view, Record.unnumbered, RecordView.unnumbered]
  unfold SameViews
  rw [views rows, views rows', h]

theorem insertBatch_like {items : List NewRecord} (covered : ∀ item ∈ items, K (owner, item.recordId) = true)
    (now : Int) : (insertBatch owner now items).Like (SameOn K) SameRows (insertBatch owner now items) := by
  refine Routine.like_bind (Routine.like_statement (selectTaken_keeps (List.forall_mem_map.mpr covered)))
    fun taken _ h => ?_
  subst h
  cases taken with
  | some id => exact .note _ _ (.finish (.error _))
  | none =>
    refine Routine.like_bind (Routine.like_statement (insertRecords_keeps covered now)) fun rows rows' h => ?_
    cases h with
    | none => exact .note _ _ (.finish (.error _))
    | some hs => exact Routine.like_pure hs

theorem upload_like {request : Upload}
    (covered : request.userId = some owner → ∀ item ∈ request.items, K (owner, item.recordId) = true)
    (now : Int) : (upload owner now request).Like (SameOn K) SameViews (upload owner now request) := by
  refine opening_like fun hn _ time _ => ?_
  refine Routine.like_bind (insertBatch_like (covered hn) time) fun rows rows' h => ?_
  have counted : rows.length = rows'.length := by simpa using congrArg List.length h
  exact .note _ _ (Routine.like_pure (sameViews_of_sameRows _ h))

theorem explain_like {recordId : Text} (covered : K (owner, recordId) = true) (version : Int) :
    (explain owner recordId version).Like (SameOn K) Eq (explain owner recordId version) := by
  refine Routine.like_bind (Routine.like_statement (selectRecord_keeps covered)) fun found found' h => ?_
  cases found with
  | none =>
    cases found' with
    | none => exact .note _ _ (.finish (.error _))
    | some r' => cases h
  | some r =>
    cases found' with
    | none => cases h
    | some r' =>
      have same : r.unnumbered = r'.unnumbered := Option.some.inj h
      have deleted : r.unnumbered.deleted = r'.unnumbered.deleted := by rw [same]
      change r.deleted = r'.deleted at deleted
      simp only [deleted]
      split
      · exact .note _ _ (.finish (.error _))
      · exact .note _ _ (.finish (.error _))

theorem amendEach_like {items : List (Amendment × Int)} (covered : ∀ p ∈ items, K (owner, p.1.recordId) = true)
    (now : Int) : (amendEach owner now items).Like (SameOn K) Eq (amendEach owner now items) := by
  induction items with
  | nil => exact Routine.like_pure rfl
  | cons p rest ih =>
    have later := ih fun q hq => covered q (List.mem_cons_of_mem _ hq)
    have own := covered p List.mem_cons_self
    refine Routine.like_bind (Routine.like_statement (amendRecord_keeps own now p.2)) fun count _ h => ?_
    subst h
    split
    · exact Routine.like_bind (explain_like own _) fun _ _ _ => later
    · exact later

theorem amend_like {named : Option Int} {items : List Amendment}
    (covered : named = some owner → ∀ item ∈ items, K (owner, item.recordId) = true)
    (missing verb : String) (now : Int) :
    (amend missing verb owner now named items).Like (SameOn K) Eq (amend missing verb owner now named items) := by
  refine opening_like fun hn checked time hc => ?_
  have listed : ∀ p ∈ checked, K (owner, p.1.recordId) = true := by
    intro p hp
    apply covered hn
    rw [← (checkEach_ok hc).1]
    exact List.mem_map_of_mem hp
  refine Routine.like_bind (amendEach_like listed time) fun _ _ _ => ?_
  exact .note _ _ (.finish (.ok rfl))

theorem answer_like {S : Tables → Tables → Prop} {R : α → α → Prop} {r : Routine α} {f : α → Answer}
    (h : r.Like S R r) (hf : ∀ a b, R a b → SameAnswer (f a) (f b)) :
    (r.bind fun x => pure (f x)).Like S SameAnswer (r.bind fun x => pure (f x)) :=
  Routine.like_bind h fun a b hab => Routine.like_pure (hf a b hab)

/-- A batch that its caller may make does the same to tables that are the same at its keys, and answers the same.
Any other batch is refused for all tables alike. -/
theorem Batch.like {caller now : Int} (batch : Batch)
    (covered : batch.named = some caller → ∀ d ∈ (batch.call caller).deeds now, K d.key = true) :
    ((batch.call caller).routine now).Like (SameOn K) SameAnswer ((batch.call caller).routine now) := by
  cases batch with
  | upload request =>
    exact answer_like (upload_like (fun hn => List.forall_mem_map.mp (covered hn)) now)
      fun _ _ h => congrArg Answer.records h
  | update request =>
    exact answer_like (amend_like (fun hn => List.forall_mem_map.mp (covered hn)) _ _ now) fun _ _ _ => rfl
  | delete request =>
    exact answer_like (amend_like (fun hn => List.forall_mem_map.mp (covered hn)) _ _ now) fun _ _ _ => rfl

/-- Deeds leave the records of other keys as they are. -/
theorem performAll_spares {deeds : List Deed} (spared : ∀ d ∈ deeds, K d.key = false) (rows : List Record) :
    (Deed.performAll rows deeds).filter (fun r => K r.key) = rows.filter fun r => K r.key := by
  refine Deed.filter_performAll fun d hd r hr => ?_
  rw [Record.key_eq_iff.mpr hr]
  exact spared d hd

namespace Visit

/-- Like calls on like databases come to the same, apart from the numbers of records. -/
theorem ended_like {S : Tables → Tables → Prop} {x : Visit}
    (like : (x.call.routine x.now).Like S SameAnswer (x.call.routine x.now)) {db db' : Database}
    (h : Option.Rel S db db') :
    (x.ended db).result.map Answer.unnumbered = (x.ended db').result.map Answer.unnumbered ∧
      Option.Rel S (x.ended db).database (x.ended db').database := by
  have sessions : ({ database := db, locked := x.locked } : Session).Like S
      { database := db', locked := x.locked } := ⟨h, .none, rfl⟩
  obtain ⟨hr, hd⟩ : Outcome.Like SameAnswer (x.ended db).result (x.ended db').result ∧
      Option.Rel S (x.ended db).database (x.ended db').database :=
    like.runCall (breaking_alone _ _) sessions
  refine ⟨?_, hd⟩
  generalize (x.ended db).result = result at hr
  generalize (x.ended db').result = result' at hr
  cases hr with
  | error e => rfl
  | ok hab => exact congrArg Except.ok hab

end Visit

end Vault

end Strongbox
