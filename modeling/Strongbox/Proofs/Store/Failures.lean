import Strongbox.Proofs.Store.Evaluation

/-!
# How routines fail

A call fails as its routine does, as the store does, or as it is stopped. So it is enough to know how the checks and
the statements of a routine can fail.
-/

namespace Strongbox.Store

/-- An integer that the store cannot hold. -/
theorem bindInt_error {n : Int} {f : Fault} (h : bindInt n = .error f) :
    f = .overflow ∧ (n < -0x8000000000000000 ∨ 0x8000000000000000 ≤ n) := by
  unfold bindInt at h
  split at h
  · cases h
  · cases h
    exact ⟨rfl, by omega⟩

namespace Routine

variable {P Q : Failure → Prop} {r : Routine α}

/-- However a routine fails, by its checks or by its statements, it fails in this way. -/
def FailsOnly (P : Failure → Prop) : Routine α → Prop
  | .finish (.ok _) => True
  | .finish (.error e) => P e
  | .note _ rest => rest.FailsOnly P
  | .execute st rest => ∀ t,
    match st.run t with
    | .error f => P (.fault f)
    | .ok (reply, _) => (rest reply).FailsOnly P

theorem failsOnly_bind {f : α → Routine β} (h : r.FailsOnly P) (hf : ∀ x, (f x).FailsOnly P) :
    (r >>= f).FailsOnly P := by
  change (r.bind f).FailsOnly P
  induction r with
  | finish result =>
    cases result with
    | error e => exact h
    | ok x => exact hf x
  | note n rest ih => exact ih h
  | execute st rest ih =>
    intro t
    have hrun := h t
    cases hx : st.run t with
    | error f =>
      rw [hx] at hrun
      exact hrun
    | ok reply =>
      rw [hx] at hrun
      exact ih reply.1 hrun

/-- A read whose values can be bound does not fail. -/
theorem failsOnly_reading {bind : Except Fault Unit} {read : Tables → β} {f : β → Routine α} (h : bind = .ok ())
    (hf : ∀ y, (f y).FailsOnly P) : (statement (reading bind read) >>= f).FailsOnly P := by
  subst h
  exact fun t => hf (read t)

/-- A write fails only if one of its values cannot be bound. -/
theorem failsOnly_writing {bind : Except Fault Unit} {write : Tables → β × Tables}
    (h : ∀ f, bind = .error f → P (.fault f)) : (statement (writing bind write)).FailsOnly P := by
  intro t
  cases bind with
  | error f => exact h f rfl
  | ok u => trivial

section Runs

variable {around : Surroundings ρ} {e : Failure}

/-- A statement fails as the routine says, or the store does. -/
theorem execute_fails {st : Statement β} {rest : β → Routine α} (h : (Routine.execute st rest).FailsOnly P)
    (store : P unavailable) {s : Session} (hx : s.execute st = .error e) : P e := by
  unfold Session.execute at hx
  split at hx
  · cases hx
    exact store
  · rename_i t _
    have hrun := h t
    split at hx
    · rename_i f hf
      rw [hf] at hrun
      cases hx
      exact hrun
    · split at hx
      · split at hx
        · cases hx
          exact store
        · cases hx
      · cases hx

theorem FailsOnly.run (h : r.FailsOnly P) (store : P unavailable)
    (stops : ∀ done f, around.stops done = some f → P f) (breaks : ∀ done f, around.breaks done = some f → P f)
    {done : Nat} {s : Session} (hr : (r.run around done s).result = .error e) : P e := by
  induction r generalizing done s with
  | finish result =>
    cases result with
    | error f =>
      cases hr
      exact h
    | ok x =>
      simp only [Routine.run] at hr
      cases hb : around.breaks done with
      | some f =>
        rw [hb] at hr
        cases hr
        exact breaks done _ hb
      | none =>
        rw [hb] at hr
        cases hr
  | note n rest ih => exact ih h hr
  | execute st rest ih =>
    simp only [Routine.run] at hr
    cases hb : around.breaks done with
    | some f =>
      simp only [hb] at hr
      cases hr
      exact breaks done _ hb
    | none =>
      simp only [hb] at hr
      cases hx : s.execute st with
      | error f =>
        simp only [hx] at hr
        cases hr
        exact execute_fails h store hx
      | ok reply =>
        obtain ⟨t, t', _, hrun, _⟩ := execute_eq_ok hx
        have rest_fails := h t
        rw [hrun] at rest_fails
        simp only [hx] at hr
        by_cases hy : st.yields = true
        · simp only [hy, if_true] at hr
          cases hs : around.stops (done + 1) with
          | some f =>
            simp only [hs] at hr
            cases hr
            exact stops (done + 1) _ hs
          | none =>
            simp only [hs] at hr
            exact ih reply.1 rest_fails hr
        · simp only [hy, Bool.false_eq_true, if_false] at hr
          exact ih reply.1 rest_fails hr

theorem FailsOnly.runCall (h : r.FailsOnly P) (store : P unavailable) (late : P cancelled)
    (stops : ∀ done f, around.stops done = some f → P f) (breaks : ∀ done f, around.breaks done = some f → P f)
    {timeout : Binary64} {s : Session} (hr : (runCall around timeout s r).result = .error e) : P e := by
  unfold Store.runCall at hr
  by_cases ht : timeout.isPositive = true
  · simp only [ht, if_true] at hr
    exact h.run store stops breaks hr
  · simp only [ht, Bool.false_eq_true, if_false] at hr
    cases hr
    exact late

end Runs

end Routine

end Strongbox.Store
