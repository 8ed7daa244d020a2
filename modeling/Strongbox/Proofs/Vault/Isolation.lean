import Strongbox.Proofs.Vault.Footprint

/-!
# Isolation of users

What a user's calls come to depends on the user's own records alone, and not on their numbers. Calls of others
leave these records as they are. So a user cannot tell what others do.
-/

namespace Strongbox

def Tables.seenBy (user : Int) (t : Tables) : List Record := (t.ofOwner user).map Record.unnumbered

namespace Vault

open Store

def SameFor (user : Int) (t t' : Tables) : Prop := t.seenBy user = t'.seenBy user

variable {user : Int} {t t' : Tables}

def ownKeys (user : Int) (key : Int × Text) : Bool := key.1 == user

/-- To the user, tables are the same if they are so at the user's keys. -/
theorem sameFor_eq : SameFor user = SameOn (ownKeys user) := rfl

def SeenRows (user : Int) (rows : Tables → Int → List Record) : Prop :=
  ∀ t t', SameFor user t t' → SameRows (rows t user) (rows t' user)

theorem seenRows_ofOwner : SeenRows user Tables.ofOwner := fun _ _ h => h

theorem SameRows.filter {rows rows' : List Record} (h : SameRows rows rows') {p : Record → Bool}
    (hp : ∀ r : Record, p r.unnumbered = p r) : SameRows (rows.filter p) (rows'.filter p) := by
  have unnumbered : ∀ rows : List Record,
      (rows.filter p).map Record.unnumbered = (rows.map Record.unnumbered).filter p := by
    intro rows
    rw [List.filter_map]
    congr 2
    funext r
    exact (hp r).symm
  unfold SameRows
  rw [unnumbered, unnumbered, h]

theorem seenRows_liveOf : SeenRows user Tables.liveOf :=
  fun _ _ h => SameRows.filter h fun _ => rfl

theorem ownerOf_like {R : α → α → Prop} {f f' : Int → Routine α}
    (h : (f user).Like (SameFor user) R (f' user)) :
    (Routine.ofOutcome (Guard.ownerOf user) >>= f).Like (SameFor user) R
      (Routine.ofOutcome (Guard.ownerOf user) >>= f') := by
  unfold Guard.ownerOf
  split
  · exact .finish (.error _)
  · exact h

section Rows

variable {rows : Tables → Int → List Record} {form : Record → α} {R : List α → List α → Prop}
  (seen : SeenRows user rows) (forms : ∀ found found', SameRows found found' → R (found.map form) (found'.map form))
include seen forms

theorem readAll_like : (readAll rows form user).Like (SameFor user) R (readAll rows form user) := by
  have keeps : (selectRows rows user).Keeps (SameFor user) SameRows := keeps_reading seen
  refine ownerOf_like (Routine.like_bind (Routine.like_statement keeps) fun found found' h => ?_)
  exact Routine.like_pure (forms found found' h)

theorem readAmong_like (missing : String) (check : List Text → Except VaultError Unit) (request : Selection) :
    (readAmong rows form missing check user request).Like (SameFor user) R
      (readAmong rows form missing check user request) := by
  have keeps : (selectAmong rows user request.recordIds).Keeps (SameFor user) SameRows :=
    keeps_reading fun t t' h => (seen t t' h).filter fun _ => rfl
  refine ownerFor_like fun _ => ?_
  split
  · exact Routine.like_reject _
  · refine ofCheck_like fun _ _ => Routine.like_bind (Routine.like_statement keeps) fun found found' h => ?_
    exact Routine.like_pure (forms found found' h)

end Rows

theorem descriptors_congr {rows rows' : List Record} (h : SameRows rows rows') :
    rows.map Record.descriptor = rows'.map Record.descriptor := by
  have states : ∀ rows : List Record, rows.map Record.descriptor =
      (rows.map Record.unnumbered).map Record.descriptor := by
    intro rows
    simp [Record.descriptor, Record.unnumbered]
  rw [states rows, states rows', h]

theorem compare_like (request : Comparison) :
    (Sync.compare user request).Like (SameFor user) Eq (Sync.compare user request) := by
  refine ownerFor_like fun _ => ofCheck_like fun _ _ => ?_
  have keeps : (selectRows Tables.ofOwner user).Keeps (SameFor user) SameRows := keeps_reading seenRows_ofOwner
  refine Routine.like_bind (Routine.like_statement keeps) fun _ _ h => ?_
  rw [descriptors_congr h]
  exact .note _ _ (.finish (.ok rfl))

/-- A user's call does the same to databases that are the same for the user, and answers the same. -/
theorem Call.like {call : Call} (h : call.user? = some user) (now : Int) :
    (call.routine now).Like (SameFor user) SameAnswer (call.routine now) := by
  have views : ∀ a b, SameViews a b → SameAnswer (.records a) (.records b) :=
    fun a b hab => congrArg Answer.records hab
  have states : ∀ a b, a = b → SameAnswer (.states a) (.states b) := by
    rintro a _ rfl
    rfl
  have told : ∀ found found', SameRows found found' →
      SameViews (found.map (Record.view none)) (found'.map (Record.view none)) :=
    fun _ _ same => sameViews_of_sameRows none same
  have own : ∀ d ∈ call.deeds now, ownKeys user d.key = true := by
    intro d hd
    have owner : d.owner = user := Option.some.inj ((Call.owner_of_mem_deeds hd).symm.trans h)
    exact beq_iff_eq.mpr owner
  cases call with
  | upload caller request =>
    cases h
    rw [sameFor_eq]
    exact Batch.like (.upload request) fun _ => own
  | update caller request =>
    cases h
    rw [sameFor_eq]
    exact Batch.like (.update request) fun _ => own
  | delete caller request =>
    cases h
    rw [sameFor_eq]
    exact Batch.like (.delete request) fun _ => own
  | download caller request =>
    cases h
    exact answer_like (readAmong_like seenRows_liveOf told _ _ request) views
  | downloadAll caller =>
    cases h
    exact answer_like (readAll_like seenRows_liveOf told) views
  | allStates caller =>
    cases h
    exact answer_like (readAll_like seenRows_ofOwner fun _ _ => descriptors_congr) states
  | specificStates caller request =>
    cases h
    exact answer_like (readAmong_like seenRows_ofOwner (fun _ _ => descriptors_congr) _ _ request) states
  | compare caller request =>
    cases h
    exact answer_like (compare_like request) fun _ _ hab => by rw [hab]; rfl
  | register random request => cases h
  | login request => cases h
  | params caller => cases h

namespace Visit

def seen (user : Int) (db : Database) : Option (List Record) := db.map (Tables.seenBy user)

theorem rel_of_seen {db db' : Database} (h : seen user db = seen user db') :
    Option.Rel (SameFor user) db db' := by
  cases db with
  | none =>
    cases db' with
    | none => exact .none
    | some t' => cases h
  | some t =>
    cases db' with
    | none => cases h
    | some t' => exact .some (Option.some.inj h)

theorem seen_of_rel {db db' : Database} (h : Option.Rel (SameFor user) db db') :
    seen user db = seen user db' := by
  cases h with
  | none => rfl
  | some hs => exact congrArg some hs

/-- A call of somebody else leaves what the user sees as it is. -/
theorem seen_other {x : Visit} (hx : x.isBy user = false) (db : Database) :
    seen user (x.ended db).database = seen user db := by
  have spared : ∀ d ∈ x.call.deeds x.now, ownKeys user d.key = false := by
    intro d hd
    refine Bool.eq_false_iff.mpr fun own => ?_
    have owner : d.owner = user := beq_iff_eq.mp own
    simp [isBy, Call.owner_of_mem_deeds hd, owner] at hx
  rcases x.ended_database db with h | ⟨t, u, ht, hu, _, hrecords⟩
  · rw [h]
  · have same : SameOn (ownKeys user) u t := by
      rw [SameOn, Tables.onKeys, hrecords, performAll_spares spared]
      rfl
    rw [hu, ht]
    exact congrArg some same

/-- A call of the user comes to the same on databases that look the same to the user, and they do so after it. -/
theorem ended_own {x : Visit} (hx : x.isBy user = true) {db db' : Database}
    (h : seen user db = seen user db') :
    (x.ended db).result.map Answer.unnumbered = (x.ended db').result.map Answer.unnumbered ∧
      seen user (x.ended db).database = seen user (x.ended db').database := by
  have caller : x.call.user? = some user := by simpa [isBy] using hx
  obtain ⟨result, database⟩ := ended_like (Call.like caller x.now) (rel_of_seen h)
  exact ⟨result, seen_of_rel database⟩

/-- The calls of others may as well not be made. -/
theorem outcomes_filter {db db' : Database} (h : seen user db = seen user db') (xs : List Visit) :
    (outcomes user db xs).map (·.map Answer.unnumbered) =
      (outcomes user db' (xs.filter (isBy user))).map (·.map Answer.unnumbered) := by
  induction xs generalizing db db' with
  | nil => rfl
  | cons x rest ih =>
    cases hx : x.isBy user with
    | false =>
      have same := (seen_other hx db).trans h
      simpa [outcomes, hx] using ih same
    | true =>
      obtain ⟨hr, hd⟩ := ended_own hx h
      simp only [outcomes, List.filter_cons, hx, if_true, List.map_cons]
      rw [hr, ih hd]

/-- Two runs from one database in which the user makes the same calls come to the same for the user, whatever
calls others make in them: each call of the user fails in the same way, or gets the same answer, apart from the
numbers of records. -/
theorem outcomes_independent_of_others (user : Int) (db : Database) (xs ys : List Visit)
    (h : xs.filter (isBy user) = ys.filter (isBy user)) :
    (outcomes user db xs).map (·.map Answer.unnumbered) =
      (outcomes user db ys).map (·.map Answer.unnumbered) := by
  rw [outcomes_filter rfl xs, outcomes_filter rfl ys, h]

/-- Somebody else's upload of the same id comes first or does not. -/
theorem upload_independent_of_others :
    let add (owner : Int) : Visit :=
      { call := .upload owner { userId := some owner, items := [⟨[97], [98], [99]⟩] }
        now := 5, timeout := .finite false 5 0 }
    let fetch : Visit := { call := .downloadAll 1, now := 6, timeout := .finite false 5 0 }
    [add 2, add 1, fetch].filter (isBy 1) = [add 1, fetch].filter (isBy 1) ∧
      (outcomes 1 (some {}) [add 2, add 1, fetch]).map (·.map Answer.unnumbered) =
        (outcomes 1 (some {}) [add 1, fetch]).map (·.map Answer.unnumbered) :=
  ⟨rfl, outcomes_independent_of_others 1 (some {}) _ _ rfl⟩

end Visit

end Vault

end Strongbox
