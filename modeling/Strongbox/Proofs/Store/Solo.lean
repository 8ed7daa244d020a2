import Strongbox.Proofs.Store.Interference

/-!
# Routines that have the tables to themselves

A call that nobody disturbs is a function of the tables that it finds: it fails, or it has a result and leaves
tables. The transaction makes no difference to it, because it sees what it wrote.
-/

namespace Strongbox.Store.Routine

/-- What a routine comes to on these tables, and the tables that it leaves. -/
def solo : Routine α → Tables → Outcome (α × Tables)
  | .finish (.ok x), t => .ok (x, t)
  | .finish (.error e), _ => .error e
  | .note _ rest, t => rest.solo t
  | .execute st rest, t =>
    match st.run t with
    | .error f => Outcome.fail f
    | .ok (reply, u) => (rest reply).solo (if st.writes then u else t)

variable {r : Routine α} {s : Session} {t u : Tables} {x : α} {e : Failure}

theorem solo_bind (r : Routine α) (f : α → Routine β) (t : Tables) :
    (r >>= f).solo t = r.solo t >>= fun p => (f p.1).solo p.2 := by
  change (r.bind f).solo t = _
  induction r generalizing t with
  | finish result => cases result <;> rfl
  | note n rest ih => exact ih t
  | execute st rest ih =>
    simp only [bind, solo]
    cases st.run t with
    | error f => rfl
    | ok reply => exact ih reply.1 _

theorem solo_bind_of_ok {f : α → Routine β} (h : r.solo t = .ok (x, u)) : (r >>= f).solo t = (f x).solo u := by
  rw [solo_bind, h]
  rfl

theorem solo_map (r : Routine α) (f : α → β) (t : Tables) :
    (r.bind fun x => pure (f x)).solo t = (r.solo t).map fun p => (f p.1, p.2) :=
  (solo_bind r _ t).trans (by cases r.solo t <;> rfl)

section Statements

variable {bind : Except Fault Unit} {read : Tables → β} {write : Tables → β × Tables}

theorem solo_reading (h : bind = .ok ()) :
    (statement (reading bind read)).solo t = .ok (read t, t) := by
  subst h
  rfl

theorem solo_writing (h : bind = .ok ()) : (statement (writing bind write)).solo t = .ok (write t) := by
  subst h
  rfl

/-- Whether others get a turn after a statement does not matter to a call that has the tables to itself. -/
theorem solo_forObjects (st : Statement β) : (statement (forObjects st)).solo t = (statement st).solo t := by
  simp only [statement, solo, forObjects]

end Statements

/-- Whether it is in a transaction does not matter to a call. -/
theorem eval_eq_solo (hs : s.visible = some t) (hl : s.locked = false) :
    (r.eval s).map (fun p => (p.1, p.2.visible)) = (r.solo t).map fun p => (p.1, some p.2) := by
  induction r generalizing s t with
  | finish result =>
    cases result with
    | error e => rfl
    | ok x => exact congrArg (fun v => Except.ok (x, v)) hs
  | note n rest ih => exact ih hs hl
  | execute st rest ih =>
    simp only [eval, solo, Session.execute, hs]
    cases st.run t with
    | error f => rfl
    | ok reply =>
      by_cases hw : st.writes = true
      · simp only [hw, hl, if_true, Bool.false_eq_true, if_false]
        exact ih reply.1 rfl rfl
      · simp only [hw, Bool.false_eq_true, if_false]
        exact ih reply.1 hs hl

theorem eval_of_solo (hs : s.visible = some t) (hl : s.locked = false) (h : r.solo t = .ok (x, u)) :
    ∃ s', r.eval s = .ok (x, s') ∧ s'.visible = some u := by
  have same := eval_eq_solo (r := r) hs hl
  rw [h] at same
  obtain ⟨⟨y, s'⟩, hp, hv⟩ := map_eq_ok.mp same
  obtain ⟨rfl, hv⟩ := Prod.mk.inj hv
  exact ⟨s', hp, hv⟩

theorem eval_of_solo_error (hs : s.visible = some t) (hl : s.locked = false) (h : r.solo t = .error e) :
    r.eval s = .error e := by
  have same := eval_eq_solo (r := r) hs hl
  rw [h] at same
  cases hx : r.eval s with
  | error f =>
    rw [hx] at same
    cases same
    rfl
  | ok p =>
    rw [hx] at same
    cases same

theorem mayYield_of_solo (h : r.solo t = .ok (x, u)) : r.MayYield x := by
  induction r generalizing t with
  | finish result =>
    cases result with
    | error e => cases h
    | ok y =>
      cases h
      rfl
  | note n rest ih => exact ih h
  | execute st rest ih =>
    simp only [solo] at h
    cases hrun : st.run t with
    | error f =>
      rw [hrun] at h
      cases h
    | ok reply =>
      rw [hrun] at h
      exact ⟨t, reply.1, reply.2, hrun, ih reply.1 h⟩

theorem Lands.solo {P : Tables → Tables → Prop} (h : r.Lands P) (hx : r.solo t = .ok (x, u)) : P t u := by
  obtain ⟨s', hs', hv⟩ := eval_of_solo (s := { database := some t }) rfl rfl hx
  obtain ⟨v, hv', hp⟩ := h.eval rfl rfl hs'
  cases hv.symm.trans hv'
  exact hp

end Strongbox.Store.Routine
