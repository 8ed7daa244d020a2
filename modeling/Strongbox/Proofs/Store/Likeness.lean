import Strongbox.Proofs.Store.Evaluation

/-!
# Like routines

Two routines are alike if they do the same statements, and go on alike when the replies are alike. If the
statements keep a likeness of tables, then like routines on like databases fail alike, or end well with like
results, and leave like databases.
-/

namespace Strongbox

inductive Outcome.Like (E : α → β → Prop) : Except ε α → Except ε β → Prop where
  | error (e : ε) : Like E (.error e) (.error e)
  | ok {x : α} {y : β} (h : E x y) : Like E (.ok x) (.ok y)

namespace Store

variable {S : Tables → Tables → Prop}

def Statement.Keeps (S : Tables → Tables → Prop) (E : β → β → Prop) (st : Statement β) : Prop :=
  ∀ t t', S t t' → Outcome.Like (fun a b => E a.1 b.1 ∧ S a.2 b.2) (st.run t) (st.run t')

theorem keeps_reading {E : β → β → Prop} {bind : Except Fault Unit} {read : Tables → β}
    (h : ∀ t t', S t t' → E (read t) (read t')) : (reading bind read).Keeps S E := by
  intro t t' hs
  unfold reading
  cases bind with
  | error f => exact .error f
  | ok u => exact .ok ⟨h t t' hs, hs⟩

theorem keeps_writing {E : β → β → Prop} {bind : Except Fault Unit} {write : Tables → β × Tables}
    (h : ∀ t t', S t t' → E (write t).1 (write t').1 ∧ S (write t).2 (write t').2) :
    (writing bind write).Keeps S E := by
  intro t t' hs
  unfold writing
  cases bind with
  | error f => exact .error f
  | ok u => exact .ok (h t t' hs)

structure Session.Like (S : Tables → Tables → Prop) (s s' : Session) : Prop where
  database : Option.Rel S s.database s'.database
  pending : Option.Rel S s.pending s'.pending
  locked : s.locked = s'.locked

inductive Routine.Like (S : Tables → Tables → Prop) (R : α → α → Prop) : Routine α → Routine α → Prop where
  | finish {result result' : Outcome α} (h : Outcome.Like R result result') :
    Like S R (.finish result) (.finish result')
  | note (n n' : Log.Notice) {rest rest' : Routine α} (h : Like S R rest rest') :
    Like S R (.note n rest) (.note n' rest')
  | execute {st : Statement β} (E : β → β → Prop) {rest rest' : β → Routine α} (keeps : st.Keeps S E)
    (h : ∀ a b, E a b → Like S R (rest a) (rest' b)) : Like S R (.execute st rest) (.execute st rest')

theorem Session.Like.visible {s s' : Session} (h : s.Like S s') : Option.Rel S s.visible s'.visible := by
  unfold Session.visible
  have hp := h.pending
  generalize s.pending = p at hp
  generalize s'.pending = p' at hp
  cases hp with
  | none => exact h.database
  | some hs => exact .some hs

theorem Session.Like.execute {s s' : Session} (h : s.Like S s') {st : Statement β} {E : β → β → Prop}
    (keeps : st.Keeps S E) :
    Outcome.Like (fun a b => E a.1 b.1 ∧ a.2.Like S b.2) (s.execute st) (s'.execute st) := by
  have hv := h.visible
  unfold Session.execute
  rw [h.locked]
  generalize s.visible = v at hv
  generalize s'.visible = v' at hv
  cases hv with
  | none => exact .error _
  | some ht =>
    rename_i t t'
    have hrun := keeps t t' ht
    simp only
    generalize st.run t = x at hrun
    generalize st.run t' = x' at hrun
    cases hrun with
    | error f => exact .error _
    | ok hr =>
      obtain ⟨he, ht⟩ := hr
      by_cases hw : st.writes = true
      · by_cases hl : s'.locked = true
        · simp only [hw, hl, if_true]
          exact .error _
        · simp only [hw, hl, if_true, Bool.false_eq_true, if_false]
          exact .ok ⟨he, h.database, .some ht, rfl⟩
      · simp only [hw, Bool.false_eq_true, if_false]
        exact .ok ⟨he, h⟩

namespace Routine

variable {R : α → α → Prop} {Q : β → β → Prop} {around : Surroundings ρ}

theorem like_bind {r r' : Routine β} {f f' : β → Routine α} (h : r.Like S Q r')
    (hf : ∀ a b, Q a b → (f a).Like S R (f' b)) : (r >>= f).Like S R (r' >>= f') := by
  change (r.bind f).Like S R (r'.bind f')
  induction h with
  | finish h =>
    cases h with
    | error e => exact .finish (.error e)
    | ok hxy => exact hf _ _ hxy
  | note n n' _ ih => exact .note n n' ih
  | execute E keeps _ ih => exact .execute E keeps fun a b hab => ih a b hab

theorem like_statement {st : Statement β} (keeps : st.Keeps S Q) :
    (statement st).Like S Q (statement st) :=
  .execute Q keeps fun _ _ h => .finish (.ok h)

theorem like_ofOutcome {x : Outcome β} {f f' : β → Routine α}
    (hf : ∀ y, x = .ok y → (f y).Like S R (f' y)) :
    (ofOutcome x >>= f).Like S R (ofOutcome x >>= f') := by
  cases x with
  | error e => exact .finish (.error e)
  | ok y => exact hf y rfl

theorem like_pure {x y : α} (h : R x y) : (pure x : Routine α).Like S R (pure y) := .finish (.ok h)

theorem like_reject (e : VaultError) : (reject e : Routine α).Like S R (reject e) := .finish (.error _)

/-- Like calls on like databases fail alike or end alike, wherever they are stopped. -/
theorem Like.run (alone : around.Alone) {r r' : Routine α} (h : r.Like S R r') {done : Nat}
    {s s' : Session} (hs : s.Like S s') :
    Outcome.Like R (r.run around done s).result (r'.run around done s').result ∧
      Option.Rel S (r.run around done s).database (r'.run around done s').database := by
  induction h generalizing done s s' with
  | finish h =>
    cases h with
    | error e => exact ⟨.error e, hs.database⟩
    | ok hxy =>
      simp only [Routine.run]
      cases around.breaks done with
      | some f => exact ⟨.error f, hs.database⟩
      | none => exact ⟨.ok hxy, hs.visible⟩
  | note n n' _ ih => exact ih hs
  | execute E keeps _ ih =>
    rename_i st rest rest' _
    simp only [Routine.run]
    cases around.breaks done with
    | some f => exact ⟨.error f, hs.database⟩
    | none =>
      have hx := hs.execute keeps
      generalize s.execute st = x at hx
      generalize s'.execute st = x' at hx
      cases hx with
      | error e => exact ⟨.error e, hs.database⟩
      | ok hr =>
        rename_i a b
        obtain ⟨hab, hs⟩ := hr
        by_cases hy : st.yields = true
        · simp only [hy, if_true, alone.resume]
          cases around.stops (done + 1) with
          | some f =>
            refine ⟨.error f, ?_⟩
            rw [alone, alone]
            exact hs.database
          | none => exact ih _ _ hab hs
        · simp only [hy, Bool.false_eq_true, if_false]
          exact ih _ _ hab hs

theorem Like.runCall (alone : around.Alone) {r r' : Routine α} (h : r.Like S R r') {timeout : Binary64}
    {s s' : Session} (hs : s.Like S s') :
    Outcome.Like R (runCall around timeout s r).result (runCall around timeout s' r').result ∧
      Option.Rel S (runCall around timeout s r).database (runCall around timeout s' r').database := by
  unfold Store.runCall
  by_cases ht : timeout.isPositive = true
  · simp only [ht, if_true]
    exact h.run alone hs
  · simp only [ht, Bool.false_eq_true, if_false]
    exact ⟨.error cancelled, hs.database⟩

end Routine

end Store

end Strongbox
