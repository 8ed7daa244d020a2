import Strongbox.Proofs.Except
import Strongbox.Store.Statements

/-!
# Routines by themselves

What a routine does on its own is a function of its session. A call whose surroundings leave the database
alone either ends well and commits what this function leaves, or fails and leaves the database as it was,
wherever it was stopped.
-/

namespace Strongbox

namespace Store

def Surroundings.Alone (around : Surroundings ρ) : Prop :=
  ∀ done database writing, (around.others done database writing).database = database

theorem undisturbed_alone : (undisturbed : Surroundings ρ).Alone := fun _ _ _ => rfl

/-- A call that nobody disturbs, but that may be stopped after any statement, and fail at any. -/
def breaking (stops breaks : Nat → Option Failure) : Surroundings ρ :=
  { (undisturbed : Surroundings ρ) with stops, breaks }

theorem breaking_alone (stops breaks : Nat → Option Failure) :
    (breaking stops breaks : Surroundings ρ).Alone := fun _ _ _ => rfl

theorem Surroundings.Alone.resume {around : Surroundings ρ} (alone : around.Alone) (done : Nat)
    (s : Session) (writing : Bool) :
    { s with database := (around.others done s.database writing).database } = s := by
  rw [alone done s.database writing]

namespace Routine

/-- What a routine comes to by itself, and the session that it leaves. -/
def eval : Routine α → Session → Outcome (α × Session)
  | .finish (.ok x), s => .ok (x, s)
  | .finish (.error e), _ => .error e
  | .note _ rest, s => rest.eval s
  | .execute statement rest, s =>
    match s.execute statement with
    | .error e => .error e
    | .ok (reply, s) => (rest reply).eval s

theorem eval_statement (st : Statement β) (s : Session) : (statement st).eval s = s.execute st := by
  simp only [statement, eval]
  cases s.execute st with
  | error e => rfl
  | ok reply => rfl

theorem eval_bind (r : Routine α) (f : α → Routine β) (s : Session) :
    (r >>= f).eval s = match r.eval s with
      | .error e => .error e
      | .ok (x, s) => (f x).eval s := by
  change (r.bind f).eval s = _
  induction r generalizing s with
  | finish result => cases result <;> rfl
  | note n rest ih => exact ih s
  | execute st rest ih =>
    simp only [bind, eval]
    cases s.execute st with
    | error e => rfl
    | ok reply => exact ih reply.1 reply.2

theorem eval_bind_ok {r : Routine α} {f : α → Routine β} {s s'' : Session} {y : β} :
    (r >>= f).eval s = .ok (y, s'') ↔
      ∃ x s', r.eval s = .ok (x, s') ∧ (f x).eval s' = .ok (y, s'') := by
  rw [eval_bind]
  cases h : r.eval s with
  | error e => simp
  | ok reply =>
    constructor
    · intro hf
      exact ⟨reply.1, reply.2, rfl, hf⟩
    · rintro ⟨x, s', hr, hf⟩
      cases hr
      exact hf

end Routine

theorem bindInt_eq_ok {n : Int} : bindInt n = .ok () ↔ -0x8000000000000000 ≤ n ∧ n < 0x8000000000000000 := by
  unfold bindInt
  split <;> simp_all

theorem bindText_eq_ok {text : Text} : bindText text = .ok () ↔ text.Encodable := by
  unfold bindText
  split <;> simp_all

theorem bindTexts_eq_ok {texts : List Text} : bindTexts texts = .ok () ↔ ∀ text ∈ texts, text.Encodable := by
  unfold bindTexts
  split <;> simp_all

theorem execute_writing_ok {bind : Except Fault Unit} {write : Tables → β × Tables} {s s' : Session}
    {reply : β} :
    s.execute (writing bind write) = .ok (reply, s') ↔
      ∃ t, s.visible = some t ∧ bind = .ok () ∧ s.locked = false ∧ reply = (write t).1 ∧
        s' = { s with pending := some (write t).2 } := by
  unfold Session.execute writing
  cases s.visible with
  | none => simp
  | some t =>
    cases bind with
    | error f => simp [Except.map, Outcome.fail]
    | ok u => cases s.locked <;> simp [Except.map, eq_comm]

theorem execute_eq_ok {st : Statement β} {s s' : Session} {reply : β}
    (h : s.execute st = .ok (reply, s')) : ∃ t t', s.visible = some t ∧ st.run t = .ok (reply, t') ∧
      (st.writes = false ∧ s' = s ∨
        st.writes = true ∧ s.locked = false ∧ s' = { s with pending := some t' }) := by
  unfold Session.execute at h
  split at h
  · cases h
  · rename_i t ht
    split at h
    · cases h
    · rename_i reply' t' hr
      split at h
      · rename_i hw
        split at h
        · cases h
        · rename_i hl
          cases h
          exact ⟨t, t', ht, hr, .inr ⟨hw, by simpa using hl, rfl⟩⟩
      · rename_i hw
        cases h
        exact ⟨t, t', ht, hr, .inl ⟨by simpa using hw, rfl⟩⟩

/-- Whether others get a turn afterwards does not matter to what a statement does. -/
theorem execute_forObjects (st : Statement β) (s : Session) :
    s.execute (forObjects st) = s.execute st := rfl

/-- Without tables there are none at the end either. -/
theorem Routine.eval_visible_none {r : Routine α} {s s' : Session} {x : α} (h : r.eval s = .ok (x, s'))
    (hs : s.visible = none) : s'.visible = none := by
  induction r generalizing s with
  | finish result =>
    cases result with
    | error e => cases h
    | ok y =>
      cases h
      exact hs
  | note n rest ih => exact ih h hs
  | execute st rest ih => simp [eval, Session.execute, hs] at h

section Runs

variable {around : Surroundings ρ}

theorem execute_database {s s' : Session} {st : Statement β} {reply : β}
    (h : s.execute st = .ok (reply, s')) : s'.database = s.database := by
  obtain ⟨_, _, _, _, ⟨_, rfl⟩ | ⟨_, _, rfl⟩⟩ := execute_eq_ok h
  · rfl
  · rfl

/-- A routine whose surroundings leave the database alone fails and leaves it as it was, at whatever point it fails; or
it ends well and commits what it leaves by itself. -/
theorem run_alone (alone : around.Alone) (r : Routine α) (done : Nat) (s : Session) :
    (∃ e, (r.run around done s).result = .error e ∧ (r.run around done s).database = s.database) ∨
    ∃ x s', r.eval s = .ok (x, s') ∧ (r.run around done s).result = .ok x ∧
      (r.run around done s).database = s'.committed := by
  induction r generalizing done s with
  | finish result =>
    cases result with
    | error e => exact .inl ⟨e, rfl, rfl⟩
    | ok x =>
      simp only [Routine.run]
      cases around.breaks done with
      | some f => exact .inl ⟨f, rfl, rfl⟩
      | none => exact .inr ⟨x, s, rfl, rfl, rfl⟩
  | note n rest ih => exact ih done s
  | execute st rest ih =>
    simp only [Routine.run, Routine.eval]
    cases around.breaks done with
    | some f => exact .inl ⟨f, rfl, rfl⟩
    | none =>
      cases hx : s.execute st with
      | error e => exact .inl ⟨e, rfl, rfl⟩
      | ok reply =>
        have same : reply.2.database = s.database := execute_database hx
        by_cases yields : st.yields = true
        · simp only [yields, if_true, alone.resume]
          cases around.stops (done + 1) with
          | some f => exact .inl ⟨f, rfl, (alone _ _ _).trans same⟩
          | none =>
            rw [← same]
            exact ih reply.1 (done + 1) reply.2
        · simp only [yields, Bool.false_eq_true, if_false]
          rw [← same]
          exact ih reply.1 (done + 1) reply.2

theorem runCall_alone (alone : around.Alone) (timeout : Binary64) (s : Session) (r : Routine α) :
    (∃ e, (runCall around timeout s r).result = .error e ∧ (runCall around timeout s r).database = s.database) ∨
    ∃ x s', r.eval s = .ok (x, s') ∧ (runCall around timeout s r).result = .ok x ∧
      (runCall around timeout s r).database = s'.committed := by
  unfold runCall
  by_cases timed : timeout.isPositive = true
  · rw [if_pos timed]
    exact run_alone alone r 0 s
  · rw [if_neg timed]
    exact .inl ⟨_, rfl, rfl⟩

theorem runCall_error_database (alone : around.Alone) {r : Routine α} {timeout : Binary64} {s : Session}
    {e : Failure} (h : (runCall around timeout s r).result = .error e) :
    (runCall around timeout s r).database = s.database := by
  rcases runCall_alone alone timeout s r with ⟨_, _, same⟩ | ⟨_, _, _, ended, _⟩
  · exact same
  · cases ended.symm.trans h

theorem runCall_ok (alone : around.Alone) {r : Routine α} {timeout : Binary64} {s : Session} {x : α}
    (h : (runCall around timeout s r).result = .ok x) :
    ∃ s', r.eval s = .ok (x, s') ∧ (runCall around timeout s r).database = s'.committed := by
  rcases runCall_alone alone timeout s r with ⟨_, failed, _⟩ | ⟨_, s', hx, ended, committed⟩
  · cases failed.symm.trans h
  · cases ended.symm.trans h
    exact ⟨s', hx, committed⟩

/-- What a routine comes to by itself, its run comes to, unless it is stopped or the store breaks. -/
theorem run_result (alone : around.Alone) (unstopped : ∀ done, around.stops done = none)
    (unbroken : ∀ done, around.breaks done = none) (r : Routine α) (done : Nat) (s : Session) :
    (r.run around done s).result = (r.eval s).map (·.1) := by
  induction r generalizing done s with
  | finish result =>
    cases result with
    | error e => rfl
    | ok x =>
      simp only [Routine.run, unbroken]
      rfl
  | note n rest ih => exact ih done s
  | execute st rest ih =>
    simp only [Routine.run, Routine.eval, unbroken, unstopped]
    cases s.execute st with
    | error e => rfl
    | ok reply =>
      simp only [alone.resume]
      split
      · exact ih reply.1 (done + 1) reply.2
      · exact ih reply.1 (done + 1) reply.2

theorem runCall_of_eval_error (alone : around.Alone) {timeout : Binary64} (timed : timeout.isPositive = true)
    (unstopped : ∀ done, around.stops done = none) (unbroken : ∀ done, around.breaks done = none)
    {r : Routine α} {s : Session} {e : Failure} (h : r.eval s = .error e) :
    (runCall around timeout s r).result = .error e := by
  rw [runCall, if_pos timed, run_result alone unstopped unbroken, h]
  rfl

theorem runCall_of_eval (alone : around.Alone) {timeout : Binary64} (timed : timeout.isPositive = true)
    (unstopped : ∀ done, around.stops done = none) (unbroken : ∀ done, around.breaks done = none)
    {r : Routine α} {s s' : Session} {x : α} (h : r.eval s = .ok (x, s')) :
    (runCall around timeout s r).result = .ok x ∧
      (runCall around timeout s r).database = s'.committed := by
  have ended : (runCall around timeout s r).result = .ok x := by
    rw [runCall, if_pos timed, run_result alone unstopped unbroken, h]
    rfl
  obtain ⟨left, hx, committed⟩ := runCall_ok alone ended
  cases hx.symm.trans h
  exact ⟨ended, committed⟩

end Runs

end Store

end Strongbox
