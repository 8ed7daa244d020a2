import Strongbox.Proofs.Store.Evaluation

/-!
# Routines among others

Until it writes, a call does not see the tables as its last statement left them: others may have changed
them. From its first write on it has the tables to itself. What it comes to is thus told by the tables that
its first write finds and those that it commits in the end.
-/

namespace Strongbox.Store.Routine

/-- From this session on, a routine that ends well has a result, and commits tables, that stand in the relation
to `t`. -/
def DeliversAs (P : α → Tables → Tables → Prop) (t : Tables) (r : Routine α) (s : Session) : Prop :=
  ∀ x s', r.eval s = .ok (x, s') → ∃ u, s'.visible = some u ∧ P x t u

/-- Whatever others do before its first write, a routine that ends well has a result, and takes the tables that
this write finds to ones, that stand in the relation to them. -/
def LandsAs (P : α → Tables → Tables → Prop) : Routine α → Prop
  | .finish (.ok x) => ∀ t, P x t t
  | .finish (.error _) => True
  | .note _ rest => rest.LandsAs P
  | .execute st rest => ∀ t reply t', st.run t = .ok (reply, t') →
    if st.writes then (rest reply).DeliversAs P t { database := some t, pending := some t' }
    else (rest reply).LandsAs P

/-- The same for what does not depend on the result. -/
abbrev Lands (P : Tables → Tables → Prop) (r : Routine α) : Prop := r.LandsAs fun _ => P

variable {α β : Type} {r : Routine α} {s : Session} {t : Tables} {P Q : α → Tables → Tables → Prop}

theorem deliversAs_mono (hPQ : ∀ x t u, P x t u → Q x t u) (h : r.DeliversAs P t s) : r.DeliversAs Q t s := by
  intro x s' hx
  obtain ⟨u, hu, hp⟩ := h x s' hx
  exact ⟨u, hu, hPQ x t u hp⟩

theorem deliversAs_map {R : β → Tables → Tables → Prop} (f : α → β) (h : r.DeliversAs (fun x => R (f x)) t s) :
    (r.bind fun x => pure (f x)).DeliversAs R t s := by
  intro y s' hy
  obtain ⟨x, s₁, hx, hf⟩ := eval_bind_ok.mp hy
  cases hf
  exact h x s' hx

theorem deliversAs_execute {st : Statement β} {rest : β → Routine α} {reply : β} {s' : Session}
    (h : (Routine.execute st rest).DeliversAs P t s) (hx : s.execute st = .ok (reply, s')) :
    (rest reply).DeliversAs P t s' := by
  intro x s'' hr
  refine h x s'' ?_
  simpa [eval, hx] using hr

theorem landsAs_mono (hPQ : ∀ x t u, P x t u → Q x t u) (h : r.LandsAs P) : r.LandsAs Q := by
  induction r with
  | finish result =>
    cases result with
    | error e => trivial
    | ok x => exact fun t => hPQ x t t (h t)
  | note n rest ih => exact ih h
  | execute st rest ih =>
    intro t reply t' hrun
    have hrest := h t reply t' hrun
    by_cases hw : st.writes = true
    · simp only [hw, if_true] at hrest ⊢
      exact deliversAs_mono hPQ hrest
    · simp only [hw, Bool.false_eq_true, if_false] at hrest ⊢
      exact ih reply hrest

theorem landsAs_ofOutcome {x : Outcome β} {f : β → Routine α} (h : ∀ y, x = .ok y → (f y).LandsAs P) :
    (ofOutcome x >>= f).LandsAs P := by
  cases x with
  | error e => trivial
  | ok y => exact h y rfl

theorem landsAs_map {R : β → Tables → Tables → Prop} (f : α → β) (h : r.LandsAs fun x => R (f x)) :
    (r.bind fun x => pure (f x)).LandsAs R := by
  induction r with
  | finish result =>
    cases result with
    | error e => trivial
    | ok x => exact h
  | note n rest ih => exact ih h
  | execute st rest ih =>
    intro t reply t' hrun
    have hrest := h t reply t' hrun
    by_cases hw : st.writes = true
    · simp only [hw, if_true] at hrest ⊢
      exact deliversAs_map f hrest
    · simp only [hw, Bool.false_eq_true, if_false] at hrest ⊢
      exact ih reply hrest

/-- A routine that begins with a write has the tables to itself from the start. -/
theorem landsAs_of_delivers {st : Statement β} {rest : β → Routine α} (hr : r = .execute st rest)
    (hw : st.writes = true) (h : ∀ t, r.DeliversAs P t { database := some t }) : r.LandsAs P := by
  subst hr
  intro t reply t' hrun
  simp only [hw, if_true]
  intro x s' hx
  refine h t x s' ?_
  simpa [eval, Session.execute, Session.visible, hrun, hw] using hx

/-- A statement that only reads hands the tables over to what follows. -/
theorem landsAs_reading {bind : Except Fault Unit} {read : Tables → β} {f : β → Routine α}
    (h : ∀ t, (f (read t)).LandsAs P) : (statement (reading bind read) >>= f).LandsAs P := by
  intro t reply t' hrun
  simp only [reading, Bool.false_eq_true, if_false] at hrun ⊢
  cases bind with
  | error e => cases hrun
  | ok u =>
    cases hrun
    exact h t

/-- A call that others leave alone finds the same tables all the time. -/
theorem LandsAs.eval {r : Routine α} (h : r.LandsAs P) (hd : s.database = some t) (hp : s.pending = none)
    {x : α} {s' : Session} (hx : r.eval s = .ok (x, s')) : ∃ u, s'.visible = some u ∧ P x t u := by
  induction r with
  | finish result =>
    cases result with
    | error e => cases hx
    | ok y =>
      cases hx
      exact ⟨t, by simp [Session.visible, hp, hd], h t⟩
  | note n rest ih => exact ih h hx
  | execute st rest ih =>
    have hv : s.visible = some t := by simp [Session.visible, hp, hd]
    simp only [Routine.eval, Session.execute, hv] at hx
    cases hrun : st.run t with
    | error e => simp [hrun, Outcome.fail] at hx
    | ok reply =>
      have hrest := h t reply.1 reply.2 hrun
      simp only [hrun] at hx
      by_cases hw : st.writes = true
      · simp only [hw, if_true] at hx hrest
        cases hl : s.locked with
        | true => simp [hl] at hx
        | false =>
          simp only [hl, Bool.false_eq_true, if_false] at hx
          rw [hd] at hx
          exact hrest x s' hx
      · simp only [hw, Bool.false_eq_true, if_false] at hx hrest
        exact ih reply.1 hrest hx

/-- A routine may end well with a result, if its statements meet the right tables. -/
def MayYield : Routine α → α → Prop
  | .finish (.ok y), x => y = x
  | .finish (.error _), _ => False
  | .note _ rest, x => rest.MayYield x
  | .execute st rest, x => ∃ t reply t', st.run t = .ok (reply, t') ∧ (rest reply).MayYield x

theorem mayYield_bind {f : α → Routine β} {y : β} (h : (r >>= f).MayYield y) :
    ∃ x, r.MayYield x ∧ (f x).MayYield y := by
  change (r.bind f).MayYield y at h
  induction r with
  | finish result =>
    cases result with
    | error e => cases h
    | ok x => exact ⟨x, rfl, h⟩
  | note n rest ih => exact ih h
  | execute st rest ih =>
    obtain ⟨t, reply, t', hrun, hrest⟩ := h
    obtain ⟨x, hx, hy⟩ := ih reply hrest
    exact ⟨x, ⟨t, reply, t', hrun, hx⟩, hy⟩

theorem mayYield_ofOutcome {x : Outcome α} {y : α} (h : (ofOutcome x).MayYield y) : x = .ok y := by
  cases x with
  | error e => cases h
  | ok z =>
    cases h
    rfl

/-- A statement that only reads yields something only if its values can be bound. -/
theorem mayYield_reading {bind : Except Fault Unit} {read : Tables → β} {y : β}
    (h : (statement (reading bind read)).MayYield y) : bind = .ok () := by
  obtain ⟨t, reply, t', hrun, _⟩ := h
  obtain ⟨_, hbind, _⟩ := map_eq_ok.mp hrun
  exact hbind

/-- So does one that writes. -/
theorem mayYield_writing {bind : Except Fault Unit} {write : Tables → β × Tables} {y : β}
    (h : (statement (writing bind write)).MayYield y) : bind = .ok () := by
  obtain ⟨t, reply, t', hrun, _⟩ := h
  obtain ⟨_, hbind, _⟩ := map_eq_ok.mp hrun
  exact hbind

end Strongbox.Store.Routine
