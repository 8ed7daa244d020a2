import Strongbox.Proofs.Store.Evaluation

/-!
# From turn to turn

What a routine does between two turns of others is one step: nobody sees anything in between. A call that is
not stopped and that the store does not break is the sequence of its steps.
-/

namespace Strongbox.Store

inductive Stretch (α : Type) where
  | ended (result : Outcome α) (s : Session)
  | paused (s : Session) (rest : Routine α)

/-- The database that a call leaves: what it wrote is kept only if it ended well. -/
def Session.leaves (s : Session) : Outcome α → Option Tables
  | .ok _ => s.committed
  | .error _ => s.database

namespace Routine

def proceed : Routine α → Session → Stretch α
  | .finish result, s => .ended result s
  | .note _ rest, s => rest.proceed s
  | .execute st rest, s =>
    match s.execute st with
    | .error e => .ended (.error e) s
    | .ok (reply, s') => if st.yields then .paused s' (rest reply) else (rest reply).proceed s'

variable {around : Surroundings ρ} {r rest : Routine α} {s s' : Session}

theorem proceed_pauses {st : Statement β} {next : β → Routine α} {reply : β}
    (h : s.execute st = .ok (reply, s')) (yields : st.yields = true) :
    (Routine.execute st next).proceed s = .paused s' (next reply) := by
  simp [proceed, h, yields]

theorem proceed_goes_on {st : Statement β} {next : β → Routine α} {reply : β}
    (h : s.execute st = .ok (reply, s')) (quiet : st.yields = false) :
    (Routine.execute st next).proceed s = (next reply).proceed s' := by
  simp [proceed, h, quiet]

/-- A call ends as its last step does. -/
theorem run_ended (unbroken : ∀ done, around.breaks done = none) {result : Outcome α}
    (h : r.proceed s = .ended result s') (done : Nat) :
    (r.run around done s).result = result ∧ (r.run around done s).database = s'.leaves result := by
  induction r generalizing done s with
  | finish outcome =>
    cases h
    cases result with
    | error e => exact ⟨rfl, rfl⟩
    | ok x => simp [Routine.run, unbroken, Session.leaves]
  | note n rest ih => exact ih h done
  | execute st rest ih =>
    simp only [proceed] at h
    cases hx : s.execute st with
    | error e =>
      simp only [hx] at h
      cases h
      simp [Routine.run, unbroken, hx, Session.leaves]
    | ok reply =>
      simp only [hx] at h
      by_cases hy : st.yields = true
      · simp only [hy, if_true] at h
        cases h
      · simp only [hy, Bool.false_eq_true, if_false] at h
        simp only [Routine.run, unbroken, hx, hy, Bool.false_eq_true, if_false]
        exact ih _ h (done + 1)

/-- At a turn of others a call goes on with the database that they leave. -/
theorem run_paused (unbroken : ∀ done, around.breaks done = none) (unstopped : ∀ done, around.stops done = none)
    (h : r.proceed s = .paused s' rest) (done : Nat) : ∃ done',
      let turn := around.others done' s'.database s'.pending.isSome
      let later := rest.run around done' { s' with database := turn.database }
      (r.run around done s).result = later.result ∧ (r.run around done s).database = later.database := by
  induction r generalizing done s with
  | finish outcome => cases h
  | note n rest ih => exact ih h done
  | execute st rest ih =>
    simp only [proceed] at h
    cases hx : s.execute st with
    | error e =>
      simp only [hx] at h
      cases h
    | ok reply =>
      simp only [hx] at h
      by_cases hy : st.yields = true
      · simp only [hy, if_true] at h
        cases h
        refine ⟨done + 1, ?_⟩
        simp [Routine.run, unbroken, unstopped, hx, hy]
      · simp only [hy, Bool.false_eq_true, if_false] at h
        simp only [Routine.run, unbroken, hx, hy, Bool.false_eq_true, if_false]
        exact ih _ h (done + 1)

end Routine

end Strongbox.Store
