import Strongbox.Proofs.Http.Layers
import Strongbox.Proofs.Vault.Reachable

/-!
# Databases that requests lead to

A request makes one call at most. So requests, whatever they are, keep the database of an application among those
that calls lead to, and its settings are never touched.
-/

namespace Strongbox.Http.App

def Keeps (app : App) (t : Tables) : Prop := app.database = some t ∧ t.Reachable

def afterwards (app : App) (requests : List (Moment × Request)) : App :=
  requests.foldl (fun app (m, r) => (app.handle m r).2) app

variable {app : App} {t : Tables} {m : Moment} {r : Request}

theorem start_keeps {s : Settings} {db : Database} (h : start s db = .ok app) (stored : ∀ t, db = some t → t.Reachable) :
    ∃ t, app.Keeps t := by
  obtain ⟨_, _, _, created⟩ := start_ok h
  cases db with
  | none => exact ⟨{}, created, [], [], rfl⟩
  | some t => exact ⟨t, created, stored t rfl⟩

theorem routed_changed (h : (app.routed m r).2 ≠ app.database) :
    ∃ e, Route.find app.base r.method r.path = .served e := by
  unfold routed at h
  cases hroute : Route.find app.base r.method r.path with
  | served e => exact ⟨e, rfl⟩
  | _ =>
    rw [hroute] at h
    exact absurd rfl h

/-- One request keeps the database among those that calls lead to. -/
theorem handle_keeps (h : app.Keeps t) (m : Moment) (r : Request) : ∃ u, (app.handle m r).2.Keeps u := by
  obtain ⟨stored, reachable⟩ := h
  by_cases same : (app.handle m r).2.database = app.database
  · exact ⟨t, same.trans stored, reachable⟩
  · obtain ⟨received, _, hdb⟩ := handle_database_changed same
    rw [hdb] at same
    obtain ⟨e, hroute⟩ := routed_changed same
    rw [routed_served app hroute] at hdb same
    obtain ⟨call, answer, left, _, hx, hleft⟩ := Service.serve_database_changed same
    rw [stored] at hx
    obtain ⟨u, hu, reachable⟩ := Vault.reachable_call reachable hx
    exact ⟨u, (hdb.trans hleft).trans hu, reachable⟩

theorem afterwards_keeps (h : app.Keeps t) (requests : List (Moment × Request)) :
    ∃ u, (app.afterwards requests).Keeps u := by
  induction requests generalizing app t with
  | nil => exact ⟨t, h⟩
  | cons q rest ih =>
    obtain ⟨u, hu⟩ := handle_keeps h q.1 q.2
    exact ih hu

end Strongbox.Http.App
