import Strongbox.Proofs.Vault.Orderly

/-!
# Reachable tables

A call that was accepted passed its checks, and its values could be stored. So the tables that calls lead to,
however they are interleaved, are orderly.
-/

namespace Strongbox

/-- Calls, however they are interleaved, lead from no records to these tables. -/
def Tables.Reachable (t : Tables) : Prop :=
  ∃ users events, (Vault.World.run { database := some { users } } events).database = some t

namespace Vault

open Store

namespace World

variable {w : World} {id : Nat} {f : Flight}

/-- Calls on their way come to nothing that they could not come to from the start, and accepted ones came to
something. -/
structure Honest (w : World) : Prop where
  flights : ∀ id f, w.flights id = some f →
    ∀ answer, f.rest.MayYield answer → (f.call.routine f.now).MayYield answer
  accepted : ∀ p ∈ w.accepted, ∃ answer, (p.1.routine p.2).MayYield answer

theorem honest_put (h : w.Honest) {f : Flight}
    (hf : ∀ answer, f.rest.MayYield answer → (f.call.routine f.now).MayYield answer) :
    (w.put id (some f)).Honest := by
  constructor
  · intro other g hg
    by_cases hid : other = id
    · simp only [put, hid, if_true] at hg
      cases hg
      exact hf
    · simp only [put, hid, if_false] at hg
      exact h.flights other g hg
  · exact h.accepted

theorem honest_leave (h : w.Honest) (id : Nat) : (w.leave id).Honest := by
  constructor
  · intro other f hf
    by_cases hid : other = id
    · simp [leave, put, hid] at hf
    · simp only [leave, put, hid, if_false] at hf
      exact h.flights other f hf
  · exact h.accepted

theorem Step.honest {v : World} {e : Event} (step : w.Step e v) (h : w.Honest) : v.Honest := by
  cases step with
  | idle => exact h
  | start free call now => exact honest_put h fun _ hanswer => hanswer
  | leave _ id => exact honest_leave h id
  | note hf hrest =>
    have before := h.flights _ _ hf
    rw [hrest] at before
    exact honest_put h before
  | @execute β id f st rest reply s hf hrest hx =>
    have before := h.flights id f hf
    rw [hrest] at before
    obtain ⟨t, t', _, hrun, _⟩ := execute_eq_ok hx
    have next : (w.put id (some { f with rest := rest reply })).Honest := by
      apply honest_put h
      intro answer hanswer
      exact before answer ⟨t, reply, t', hrun, hanswer⟩
    exact ⟨next.flights, next.accepted⟩
  | commit hf hrest =>
    have before := h.flights _ _ hf
    rw [hrest] at before
    refine ⟨(honest_leave h _).flights, ?_⟩
    intro p hp
    rcases List.mem_append.mp hp with hp | hp
    · exact h.accepted p hp
    · rw [List.mem_singleton.mp hp]
      exact ⟨_, before _ rfl⟩

theorem honest_run (h : w.Honest) (events : List Event) : (w.run events).Honest := by
  induction events generalizing w with
  | nil => exact h
  | cons e rest ih => exact ih ((step_next w e).honest h)

theorem honest_initial (db : Database) : World.Honest { database := db } where
  flights := fun _ _ hf => nomatch hf
  accepted := fun _ hp => nomatch hp

/-- What was accepted can be written down. -/
theorem history_legible (db : Database) (events : List Event) {d : Deed}
    (hd : d ∈ (World.run { database := db } events).history) : d.Legible := by
  obtain ⟨⟨call, now⟩, hp, hd⟩ := List.mem_flatMap.mp hd
  obtain ⟨answer, hanswer⟩ := (honest_run (honest_initial db) events).accepted _ hp
  exact Call.legible hanswer d hd

end World

theorem reachable_orderly {t : Tables} (h : t.Reachable) : t.Orderly := by
  obtain ⟨users, events, ht⟩ := h
  obtain ⟨u, hu, enabled, hrecords⟩ := World.run_effect { users } events
  cases ht.symm.trans hu
  obtain ⟨_, records⟩ := t
  cases hrecords
  exact (Tables.orderly_empty _).performAll enabled fun d hd => World.history_legible _ events hd

/-- What a call leaves of reachable tables is reachable. -/
theorem reachable_call {t : Tables} {call : Call} {now : Int} {answer : Answer} {left : Session} (h : t.Reachable)
    (hx : (call.routine now).eval { database := some t } = .ok (answer, left)) :
    ∃ u, left.committed = some u ∧ u.Reachable := by
  obtain ⟨users, events, ht⟩ := h
  rw [← ht] at hx
  obtain ⟨more, id, _, hmore, _⟩ := World.run_call hx
  have joined : World.run { database := some { users } } (events ++ (more ++ [.advance id])) =
      ((World.run { database := some { users } } events).run more).next (.advance id) := by
    simp only [World.run, List.foldl_append, List.foldl_cons, List.foldl_nil]
  obtain ⟨u, hu, _⟩ := World.run_effect { users } (events ++ (more ++ [.advance id]))
  rw [← joined, hu] at hmore
  exact ⟨u, hmore.symm, users, _, hu⟩

end Vault

end Strongbox
