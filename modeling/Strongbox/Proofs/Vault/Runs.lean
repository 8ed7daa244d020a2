import Strongbox.Proofs.Vault.Effects
import Strongbox.Store.Database

/-!
# Runs

A run makes one call after the other. Each has its own time, and may be stopped, or broken by the store.
-/

namespace Strongbox.Vault

open Store

def Call.user? : Call → Option Int
  | .upload caller _ => some caller
  | .update caller _ => some caller
  | .delete caller _ => some caller
  | .download caller _ => some caller
  | .downloadAll caller => some caller
  | .allStates caller => some caller
  | .specificStates caller _ => some caller
  | .compare caller _ => some caller
  | .register _ _ => none
  | .login _ => none
  | .params _ => none

/-- A call at a point in time, with the seconds that it is given and what goes wrong around it. -/
structure Visit where
  call : Call
  now : Int
  timeout : Binary64
  locked : Bool := false
  stops : Nat → Option Failure := fun _ => none
  breaks : Nat → Option Failure := fun _ => none

namespace Visit

def ended (x : Visit) (db : Database) : Ended Answer Unit :=
  runCall (breaking x.stops x.breaks) x.timeout { database := db, locked := x.locked }
    (x.call.routine x.now)

def isBy (user : Int) (x : Visit) : Bool := x.call.user? == some user

/-- What a user's calls come to in a run, in order. -/
def outcomes (user : Int) : Database → List Visit → List (Outcome Answer)
  | _, [] => []
  | db, x :: rest =>
    if x.isBy user then (x.ended db).result :: outcomes user (x.ended db).database rest
    else outcomes user (x.ended db).database rest

/-- A call leaves the database as it found it, or as it commits it. -/
theorem ended_lands (x : Visit) {P : Tables → Tables → Prop} (lands : (x.call.routine x.now).Lands P) (db : Database) :
    (x.ended db).database = db ∨ ∃ t u, db = some t ∧ (x.ended db).database = some u ∧ P t u := by
  have alone : (breaking x.stops x.breaks : Surroundings Unit).Alone := breaking_alone _ _
  cases hr : (x.ended db).result with
  | error e => exact .inl (runCall_error_database alone hr)
  | ok answer =>
    obtain ⟨s', hx, hd⟩ := runCall_ok alone hr
    cases db with
    | none => exact .inl (hd.trans (Routine.eval_visible_none hx rfl))
    | some t =>
      obtain ⟨u, hu, he⟩ := lands.eval rfl rfl hx
      exact .inr ⟨t, u, rfl, hd.trans hu, he⟩

/-- What is known of a call that ends well is true of its answer. -/
theorem ended_answers (x : Visit) {P : Answer → Tables → Tables → Prop} (lands : (x.call.routine x.now).LandsAs P)
    {t : Tables} {answer : Answer} (h : (x.ended (some t)).result = .ok answer) :
    ∃ u, (x.ended (some t)).database = some u ∧ P answer t u := by
  obtain ⟨s', hx, hd⟩ := runCall_ok (breaking_alone _ _) h
  obtain ⟨u, hu, hp⟩ := lands.eval rfl rfl hx
  exact ⟨u, hd.trans hu, hp⟩

/-- The database that a call leaves is the one that it found, or has its effect on that. -/
theorem ended_database (x : Visit) (db : Database) : (x.ended db).database = db ∨
    ∃ t u, db = some t ∧ (x.ended db).database = some u ∧ Effect (x.call.deeds x.now) t u :=
  x.ended_lands (x.call.lands x.now) db

end Visit

/-- A call does deeds in its caller's name only. -/
theorem Call.owner_of_mem_deeds {call : Call} {now : Int} {d : Deed} (hd : d ∈ call.deeds now) :
    call.user? = some d.owner := by
  cases call with
  | upload caller request =>
    obtain ⟨_, _, rfl⟩ := List.mem_map.mp hd
    rfl
  | update caller request =>
    obtain ⟨_, _, rfl⟩ := List.mem_map.mp hd
    rfl
  | delete caller request =>
    obtain ⟨_, _, rfl⟩ := List.mem_map.mp hd
    rfl
  | _ => cases hd

end Strongbox.Vault
