import Strongbox.Proofs.Vault.Reachable
import Strongbox.Proofs.Vault.Success

/-!
# Batches and their items

A batch with items comes to what its items come to as batches of their own, one after the other. Updates and
deletions write item by item. An upload looks all its ids up before it inserts anything; where that fails, one of
its items would have failed by itself.
-/

namespace Strongbox

open Store

/-- The owner of a request is the caller, or the request is refused, whatever it is about. -/
theorem Guard.ownerFor_cases (caller : Int) (named : Option Int) : ownerFor caller named = pure caller ∨
    ∃ e, ∀ (t : Tables) (β : Type) (f : Int → Routine β), (ownerFor caller named >>= f).solo t = .error e := by
  unfold ownerFor
  split
  · rename_i owner ha
    obtain ⟨_, rfl⟩ := authorize_ok ha
    exact .inl rfl
  · split
    · exact .inr ⟨_, fun _ _ _ => rfl⟩
    · exact .inr ⟨_, fun _ _ _ => rfl⟩
  · exact .inr ⟨_, fun _ _ _ => rfl⟩

namespace Vault

variable {caller now : Int} {t u : Tables}

def Batch.singles : Batch → List Batch
  | upload request => request.items.map fun item => upload { request with items := [item] }
  | update request => request.items.map fun item => update { request with items := [item] }
  | delete request => request.entries.map fun entry => delete { request with entries := [entry] }

def Batch.Complete : Batch → Prop
  | upload request => ∀ item ∈ request.items, item.Complete
  | update request => ∀ item ∈ request.items, item.Complete
  | delete request => ∀ entry ∈ request.entries, entry.Complete

/-- Visits one after the other until one of them fails: the database that they leave, or that failure. -/
def Visit.inTurn : Database → List Visit → Outcome Database
  | db, [] => .ok db
  | db, x :: rest =>
    match (x.ended db).result with
    | .ok _ => inTurn (x.ended db).database rest
    | .error e => .error e

def Call.leaves (now : Int) (call : Call) (t : Tables) : Outcome Tables :=
  ((call.routine now).solo t).map Prod.snd

theorem map_snd (x : Outcome (α × Tables)) (f : α → β) :
    (x.map fun p => (f p.1, p.2)).map Prod.snd = x.map Prod.snd := by
  cases x with
  | error e => rfl
  | ok p => rfl

theorem Visit.Calm.ended_leaves {x : Visit} (calm : x.Calm) (h : x.call.leaves x.now t = .ok u) :
    (∃ answer, (x.ended (some t)).result = .ok answer) ∧ (x.ended (some t)).database = some u := by
  obtain ⟨⟨answer, _⟩, solo, rfl⟩ := map_eq_ok.mp h
  obtain ⟨result, database⟩ := calm.ended_solo solo
  exact ⟨⟨answer, result⟩, database⟩

theorem Visit.Calm.ended_leaves_error {x : Visit} (calm : x.Calm) {e : Failure}
    (h : x.call.leaves x.now t = .error e) :
    (x.ended (some t)).result = .error e ∧ (x.ended (some t)).database = some t := by
  apply calm.ended_solo_error
  unfold Call.leaves at h
  cases solo : (x.call.routine x.now).solo t with
  | error f =>
    rw [solo] at h
    cases h
    rfl
  | ok p =>
    rw [solo] at h
    cases h

theorem Visit.inTurn_calm {xs : List Visit} (calm : ∀ x ∈ xs, x.Calm) (t : Tables) :
    inTurn (some t) xs = (xs.foldlM (fun t (x : Visit) => x.call.leaves x.now t) t).map some := by
  induction xs generalizing t with
  | nil => rfl
  | cons x rest ih =>
    have first := calm x List.mem_cons_self
    rw [inTurn, List.foldlM_cons]
    cases left : x.call.leaves x.now t with
    | error e =>
      rw [(first.ended_leaves_error left).1]
      rfl
    | ok u =>
      obtain ⟨⟨answer, result⟩, database⟩ := first.ended_leaves left
      rw [result, database]
      exact ih (fun y hy => calm y (List.mem_cons_of_mem _ hy)) u

/-- Each write sees what the ones before it wrote. -/
theorem amendEach_cons {owner : Int} (p : Amendment × Int) (rest : List (Amendment × Int)) (t : Tables) :
    (amendEach owner now (p :: rest)).solo t =
      (amendEach owner now [p]).solo t >>= fun q => (amendEach owner now rest).solo q.2 := by
  simp only [amendEach, Routine.solo_bind, bind_assoc]
  congr 1
  funext counted
  by_cases none : counted.1 = 0
  · simp only [none, if_true, Routine.solo_bind, bind_assoc]
    rfl
  · simp only [none, if_false]
    rfl

theorem leaves_done {call : Call} {r : Routine Unit} (h : call.routine now = r.bind fun _ => pure .done)
    (t : Tables) : call.leaves now t = (r.solo t).map Prod.snd := by
  rw [Call.leaves, h, Routine.solo_map]
  exact map_snd _ fun _ => Answer.done

theorem solo_sayCount (r : Routine Unit) (verb : String) (count : Nat) (owner : Int) (t : Tables) :
    ((r >>= fun _ => sayCount verb count owner).solo t).map Prod.snd = (r.solo t).map Prod.snd := by
  rw [Routine.solo_bind]
  cases r.solo t with
  | error e => rfl
  | ok p => rfl

section Amend

variable {missing verb : String} {named : Option Int} {items : List Amendment} (dated : Timestamp.isDated now = true)
  (owned : Guard.ownerFor caller named = pure caller) (complete : ∀ item ∈ items, item.Complete)
include dated owned complete

theorem amend_leaves (nonempty : items ≠ []) (t : Tables) :
    ((amend missing verb caller now named items).solo t).map Prod.snd =
      ((amendEach caller now (items.map fun item => (item, item.version.getD 0))).solo t).map Prod.snd := by
  have checked := checkEach_complete complete 0
  rw [amend, opening_passed owned dated (List.isEmpty_eq_false_iff.mpr nonempty) checked]
  exact solo_sayCount _ _ _ _ _

theorem amend_inTurn (nonempty : items ≠ []) (t : Tables) :
    ((amend missing verb caller now named items).solo t).map Prod.snd =
      items.foldlM (fun t item => ((amend missing verb caller now named [item]).solo t).map Prod.snd) t := by
  rw [amend_leaves dated owned complete nonempty]
  clear nonempty
  induction items generalizing t with
  | nil => rfl
  | cons item rest ih =>
    have single := List.forall_mem_singleton.mpr (complete item List.mem_cons_self)
    have later := ih fun other ho => complete other (List.mem_cons_of_mem _ ho)
    rw [List.map_cons, amendEach_cons, List.foldlM_cons, amend_leaves dated owned single (List.cons_ne_nil _ _)]
    simp only [List.map_cons, List.map_nil]
    cases (amendEach caller now [(item, item.version.getD 0)]).solo t with
    | error e => rfl
    | ok p => exact later p.2

end Amend

/-- The owner's records of the items can be stored, and are new one after the other. -/
def Adds (owner now : Int) (items : List NewRecord) (t u : Tables) : Prop :=
  (∀ item ∈ items, bindInt owner = .ok () ∧ item.Storable) ∧
    Deed.AllEnabled t.records (Deed.batch owner now .create items) ∧
      u = { t with records := Deed.performAll t.records (Deed.batch owner now .create items) }

theorem adds_cons {item : NewRecord} {rest : List NewRecord} :
    Adds caller now (item :: rest) t u ↔ ∃ v, Adds caller now [item] t v ∧ Adds caller now rest v u := by
  constructor
  · rintro ⟨held, ⟨first, others⟩, rfl⟩
    refine ⟨_, ⟨?_, ⟨first, trivial⟩, rfl⟩, fun other ho => held other (List.mem_cons_of_mem _ ho), others, rfl⟩
    intro other ho
    rw [List.mem_singleton.mp ho]
    exact held item List.mem_cons_self
  · rintro ⟨v, ⟨held, ⟨first, _⟩, rfl⟩, later, others, rfl⟩
    refine ⟨?_, ⟨first, others⟩, rfl⟩
    intro other ho
    rcases List.mem_cons.mp ho with rfl | ho
    · exact held other List.mem_cons_self
    · exact later other ho

theorem creations_inTurn {single : NewRecord → Tables → Outcome Tables} {items : List NewRecord}
    (each : ∀ item ∈ items, ∀ t u, single item t = .ok u ↔ Adds caller now [item] t u) :
    items.foldlM (fun t item => single item t) t = .ok u ↔ Adds caller now items t u := by
  induction items generalizing t with
  | nil =>
    constructor
    · intro same
      cases same
      exact ⟨fun _ none => (nomatch none), trivial, rfl⟩
    · rintro ⟨_, _, rfl⟩
      rfl
  | cons item rest ih =>
    rw [List.foldlM_cons, bind_eq_ok, adds_cons]
    refine exists_congr fun v => and_congr (each item List.mem_cons_self t v) ?_
    exact ih fun other ho => each other (List.mem_cons_of_mem _ ho)

theorem upload_leaves (dated : Timestamp.isDated now = true) {request : Upload}
    (owned : Guard.ownerFor caller request.userId = pure caller) (nonempty : request.items ≠ [])
    (complete : ∀ item ∈ request.items, item.Complete) :
    (Call.upload caller request).leaves now t = .ok u ↔ Adds caller now request.items t u := by
  constructor
  -- what a successful upload did is known from its deeds, and what it could bind from the answers it may give
  · intro left
    obtain ⟨⟨answer, _⟩, solo, rfl⟩ := map_eq_ok.mp left
    obtain ⟨_, enabled, same⟩ := (Batch.lands caller now (.upload request)).solo solo
    refine ⟨?_, enabled, same⟩
    obtain ⟨views, hviews, _⟩ := Routine.mayYield_bind (Routine.mayYield_of_solo solo)
    obtain ⟨_, _, _, _, _, hbody⟩ := opening_mayYield hviews
    obtain ⟨rows, hinsert, _⟩ := Routine.mayYield_bind hbody
    obtain ⟨found, _, hinsert⟩ := Routine.mayYield_bind hinsert
    cases found with
    | some taken => cases hinsert
    | none =>
      obtain ⟨inserted, hstatement, _⟩ := Routine.mayYield_bind hinsert
      obtain ⟨ho, storable⟩ := insertion_bound_iff.mp (Routine.mayYield_writing hstatement)
      exact fun item hi => ⟨ho, storable item hi⟩
  · rintro ⟨held, enabled, rfl⟩
    obtain ⟨first, hfirst⟩ := List.exists_mem_of_ne_nil _ nonempty
    obtain ⟨views, added⟩ := upload_solo (held first hfirst).1 dated owned nonempty complete
      (fun item hi => (held item hi).2) enabled
    rw [Call.leaves, Call.routine, Routine.solo_map, added]
    rfl

theorem Batch.leaves_refused {batch : Batch} {e : Failure}
    (refused : ∀ (t : Tables) (β : Type) (f : Int → Routine β),
      (Guard.ownerFor caller batch.named >>= f).solo t = .error e) (t : Tables) :
    (batch.call caller).leaves now t = .error e := by
  cases batch with
  | upload request =>
    have solo : (Vault.upload caller now request).solo t = .error e := refused t _ _
    rw [call, Call.leaves, Call.routine, Routine.solo_map, solo]
    rfl
  | update request =>
    have solo : (Vault.update caller now request).solo t = .error e := refused t _ _
    rw [call, Call.leaves, Call.routine, Routine.solo_map, solo]
    rfl
  | delete request =>
    have solo : (Vault.delete caller now request).solo t = .error e := refused t _ _
    rw [call, Call.leaves, Call.routine, Routine.solo_map, solo]
    rfl

theorem Batch.named_singles {batch single : Batch} (h : single ∈ batch.singles) : single.named = batch.named := by
  cases batch with
  | upload request =>
    obtain ⟨item, _, rfl⟩ := List.mem_map.mp h
    rfl
  | update request =>
    obtain ⟨item, _, rfl⟩ := List.mem_map.mp h
    rfl
  | delete request =>
    obtain ⟨entry, _, rfl⟩ := List.mem_map.mp h
    rfl

/-- A batch with items leaves what they leave in turn, and fails where one of them does. Only an upload may fail in
another way than they. -/
theorem Batch.leaves_inTurn (caller : Int) (dated : Timestamp.isDated now = true) {batch : Batch}
    (nonempty : batch.singles ≠ []) (complete : batch.Complete) (t : Tables) :
    let inTurn := batch.singles.foldlM (fun t (single : Batch) => (single.call caller).leaves now t) t
    (batch.call caller).leaves now t = inTurn ∨
      (∃ request, batch = .upload request) ∧ ∀ u, (batch.call caller).leaves now t = .ok u ↔ inTurn = .ok u := by
  intro inTurn
  rcases Guard.ownerFor_cases caller batch.named with owned | ⟨e, refused⟩
  · cases batch with
    | upload request =>
      refine .inr ⟨⟨request, rfl⟩, fun u => ?_⟩
      have each : ∀ item ∈ request.items, ∀ t u,
          (Call.upload caller { request with items := [item] }).leaves now t = .ok u ↔
            Adds caller now [item] t u :=
        fun item hi t u => upload_leaves dated owned (List.cons_ne_nil _ _)
          (List.forall_mem_singleton.mpr (complete item hi))
      simp only [inTurn, singles, List.foldlM_map, call]
      rw [upload_leaves dated owned (mt (congrArg _) nonempty) complete]
      exact (creations_inTurn each).symm
    | update request =>
      refine .inl ?_
      have items : ∀ item ∈ request.items.map Revision.amendment, item.Complete := List.forall_mem_map.mpr complete
      have leaves : ∀ (t : Tables) (request : Update), (Call.update caller request).leaves now t =
          ((Vault.update caller now request).solo t).map Prod.snd := fun t _ => leaves_done rfl t
      simp only [inTurn, singles, List.foldlM_map, call, leaves]
      exact (amend_inTurn dated owned items (mt List.map_eq_nil_iff.mp (mt (congrArg _) nonempty)) t).trans
        List.foldlM_map
    | delete request =>
      refine .inl ?_
      have entries : ∀ entry ∈ request.entries.map Removal.amendment, entry.Complete :=
        List.forall_mem_map.mpr complete
      have leaves : ∀ (t : Tables) (request : Deletion), (Call.delete caller request).leaves now t =
          ((Vault.delete caller now request).solo t).map Prod.snd := fun t _ => leaves_done rfl t
      simp only [inTurn, singles, List.foldlM_map, call, leaves]
      exact (amend_inTurn dated owned entries (mt List.map_eq_nil_iff.mp (mt (congrArg _) nonempty)) t).trans
        List.foldlM_map
  · left
    obtain ⟨first, rest, hsingles⟩ := List.exists_cons_of_ne_nil nonempty
    have same : first.named = batch.named := named_singles (hsingles ▸ List.mem_cons_self)
    have stops : (first.call caller).leaves now t = .error e := leaves_refused (by rwa [same]) t
    simp only [inTurn, hsingles, List.foldlM_cons, stops]
    exact leaves_refused refused t

/-- A batch with items that are filled in succeeds exactly where they succeed one after the other at the same time,
and leaves what they leave. Otherwise it leaves the tables as they were, and an update or a deletion fails as the
first of its items that fails. -/
theorem batch_is_its_items {x : Visit} (calm : x.Calm) {batch : Batch} (hx : x.call = batch.call caller)
    (nonempty : batch.singles ≠ []) (complete : batch.Complete) (t : Tables) :
    let ended := x.ended (some t)
    match Visit.inTurn (some t) (batch.singles.map fun single => { x with call := single.call caller }) with
    | .ok last => (∃ answer, ended.result = .ok answer) ∧ ended.database = last
    | .error e => (∃ f, ended.result = .error f ∧ ((∀ request, batch ≠ .upload request) → f = e)) ∧
      ended.database = some t := by
  intro ended
  have each : ∀ y ∈ batch.singles.map fun single => { x with call := single.call caller }, y.Calm := by
    intro y hy
    obtain ⟨single, _, rfl⟩ := List.mem_map.mp hy
    exact ⟨calm.timed, calm.dated, calm.unlocked, calm.unstopped, calm.unbroken⟩
  have same := Batch.leaves_inTurn caller calm.dated nonempty complete t
  rw [← hx] at same
  rw [Visit.inTurn_calm each, List.foldlM_map]
  generalize batch.singles.foldlM (fun t (single : Batch) => (single.call caller).leaves x.now t) t = inTurn
    at same ⊢
  cases inTurn with
  | ok u =>
    have left : x.call.leaves x.now t = .ok u := same.elim id fun ⟨_, succeeds⟩ => (succeeds u).mpr rfl
    exact calm.ended_leaves left
  | error e =>
    cases left : x.call.leaves x.now t with
    | ok u =>
      rw [left] at same
      rcases same with equal | ⟨_, succeeds⟩
      · cases equal
      · cases (succeeds u).mp rfl
    | error f =>
      obtain ⟨result, database⟩ := calm.ended_leaves_error left
      refine ⟨⟨f, result, fun other => ?_⟩, database⟩
      rw [left] at same
      rcases same with equal | ⟨⟨request, hupload⟩, _⟩
      · cases equal
        rfl
      · exact absurd hupload (other request)

def sampleChanges : Batch :=
  .update { userId := some 1, items := [⟨[97], [120], [121], some 0⟩, ⟨[97], [122], [121], some 1⟩] }

def sampleTables : Tables := { records := [⟨1, 1, [97], [98], [99], 0, false, 5, 5⟩] }

theorem sampleChanges_complete : sampleChanges.Complete := by
  refine List.forall_mem_cons.mpr ⟨?_, List.forall_mem_singleton.mpr ?_⟩
  · exact Revision.complete_iff.mpr ⟨rfl, ⟨List.cons_ne_nil _ _, rfl⟩, 0, rfl, by decide⟩
  · exact Revision.complete_iff.mpr ⟨rfl, ⟨List.cons_ne_nil _ _, rfl⟩, 1, rfl, by decide⟩

theorem sample_changes_one_by_one :
    let x : Visit := { call := sampleChanges.call 1, now := 7, timeout := .finite false 5 0 }
    let ended := x.ended (some sampleTables)
    let inTurn := Visit.inTurn (some sampleTables)
      (sampleChanges.singles.map fun single => { x with call := single.call 1 })
    (x.Calm ∧ sampleChanges.singles ≠ [] ∧ sampleChanges.Complete) ∧
      (match inTurn with
      | .ok last => (∃ answer, ended.result = .ok answer) ∧ ended.database = last
      | .error e => (∃ f, ended.result = .error f ∧ ((∀ request, sampleChanges ≠ .upload request) → f = e)) ∧
        ended.database = some sampleTables) ∧
      inTurn = .ok (some { records := [⟨1, 1, [97], [122], [121], 2, false, 5, 7⟩] }) := by
  intro x ended inTurn
  have calm : x.Calm := ⟨rfl, rfl, rfl, fun _ => rfl, fun _ => rfl⟩
  have nonempty : sampleChanges.singles ≠ [] := List.cons_ne_nil _ _
  exact ⟨⟨calm, nonempty, sampleChanges_complete⟩,
    batch_is_its_items calm rfl nonempty sampleChanges_complete sampleTables, rfl⟩

/-- A batch without items is refused, though none of its items is. -/
theorem empty_batch_refused :
    let batch : Batch := .update { userId := some 1, items := [] }
    let x : Visit := { call := batch.call 1, now := 7, timeout := .finite false 5 0 }
    Tables.Reachable { users := [⟨1, [97], [98], [99]⟩] } ∧ x.Calm ∧ batch.Complete ∧
      Visit.inTurn (some { users := [⟨1, [97], [98], [99]⟩] })
        (batch.singles.map fun single => { x with call := single.call 1 }) =
          .ok (some { users := [⟨1, [97], [98], [99]⟩] }) ∧
      (x.ended (some { users := [⟨1, [97], [98], [99]⟩] })).result =
        .error (.vault (.invalid "no update requests provided")) := by
  intro batch x
  exact ⟨⟨_, [], rfl⟩, ⟨rfl, rfl, rfl, fun _ => rfl, fun _ => rfl⟩, fun _ none => (nomatch none), rfl, rfl⟩

end Vault

end Strongbox
