import Strongbox.Proofs.Store.Turns
import Strongbox.Proofs.Vault.Replay
import Strongbox.Proofs.Vault.Success

/-!
# Racing uploads

An upload looks its ids up in one step and inserts its records in another, and anything may happen in between:
other uploads take their steps, and batches of updates and deletions are made. What the lookup found may be out of
date by then, but the insertion is all or nothing, and it finds for itself which ids are in use.
-/

namespace Strongbox.Vault

open Store

structure Job where
  caller : Int
  now : Int
  request : Upload
  deriving DecidableEq, Repr

namespace Job

def routine (job : Job) : Routine (List RecordView) := upload job.caller job.now job.request

def recordIds (job : Job) : List Text := job.request.items.map (·.recordId)

def keys (job : Job) : List (Int × Text) := job.recordIds.map (job.caller, ·)

def deeds (job : Job) : List Deed := Deed.batch job.caller job.now .create job.request.items

structure Proper (job : Job) : Prop where
  user : IsUserId job.caller
  dated : Timestamp.isDated job.now = true
  filled : Batch.Proper job.caller (.upload job.request)

structure Conflict (job : Job) (t : Tables) (e : VaultError) : Prop where
  kind : e.kind = .uniquenessConflict
  named : ∀ recordId, e.recordId = some recordId →
    (∃ r, t.find? job.caller recordId = some r) ∨ 1 < job.recordIds.count recordId

end Job

inductive Progress where
  | waiting (pending : Option Tables) (rest : Routine (List RecordView))
  | ended (result : Outcome (List RecordView))

def Progress.Succeeded : Progress → Prop
  | ended (.ok _) => True
  | _ => False

inductive Move (ι : Type) where
  | step (id : ι)
  | update (caller now : Int) (request : Update)
  | delete (caller now : Int) (request : Deletion)
  deriving DecidableEq

structure Race (ι : Type) where
  database : Database
  uploads : ι → Progress

namespace Race

variable {ι : Type} [DecidableEq ι]

def start (jobs : ι → Job) (db : Database) : Race ι :=
  { database := db, uploads := fun id => .waiting none (jobs id).routine }

def put (w : Race ι) (id : ι) (p : Progress) (db : Database) : Race ι :=
  { database := db, uploads := fun other => if other = id then p else w.uploads other }

def step (w : Race ι) (id : ι) : Race ι :=
  match w.uploads id with
  | .ended _ => w
  | .waiting pending rest =>
    match rest.proceed { database := w.database, pending } with
    | .paused s rest => w.put id (.waiting s.pending rest) s.database
    | .ended result s => w.put id (.ended result) (s.leaves result)

def whole (w : Race ι) (call : Call) (now : Int) : Race ι :=
  match (call.routine now).eval { database := w.database } with
  | .ok (_, s) => { w with database := s.committed }
  | .error _ => w

def next (w : Race ι) : Move ι → Race ι
  | .step id => w.step id
  | .update caller now request => w.whole (.update caller request) now
  | .delete caller now request => w.whole (.delete caller request) now

def run (w : Race ι) (moves : List (Move ι)) : Race ι := moves.foldl next w

def steps (id : ι) (moves : List (Move ι)) : Nat := moves.count (.step id)

end Race

namespace Job

variable {job : Job} {t u : Tables} {rest : Routine (List RecordView)}

def Refuses (rest : Routine (List RecordView)) (e : VaultError) : Prop :=
  ∀ s, rest.proceed s = .ended (.error (.vault e)) s

structure Inserts (job : Job) (rest : Routine (List RecordView)) : Prop where
  nodup : job.recordIds.Nodup
  inserts : ∀ t, rest.proceed { database := some t } =
    match t.insertRecords? job.caller job.now job.request.items with
    | some (rows, u) =>
      .ended (.ok (rows.map (Record.view (some 0)))) { database := some t, pending := some u }
    | none => .ended (.error (.vault (.of .uniquenessConflict))) { database := some t, pending := some t }

theorem conflict_of_taken {recordId : Text} (h : ∃ r, t.find? job.caller recordId = some r) :
    job.Conflict t (conflict recordId) := by
  refine ⟨rfl, ?_⟩
  intro other hother
  cases hother
  exact .inl h

theorem first_step (proper : job.Proper) (t : Tables) :
    (∃ e, job.routine.proceed { database := some t } = .ended (.error (.vault e)) { database := some t } ∧
      job.Conflict t e) ∨
    ∃ rest, job.routine.proceed { database := some t } = .paused { database := some t } rest ∧
      (job.Inserts rest ∨ ∃ e, Refuses rest e ∧ job.Conflict t e) := by
  obtain ⟨hn, hne, hitems⟩ := proper.filled
  have nonempty : job.request.items.isEmpty = false := List.isEmpty_eq_false_iff.mpr hne
  rcases checkUpload_complete (fun item hi => (hitems item hi).complete) 0 [] with checked | ⟨recordId, checked, twice⟩
  · right
    have lookup := execute_selectTaken (t := t) (s := { database := some t }) proper.user hitems rfl
    unfold routine upload
    rw [opening_eq proper.user proper.dated hn nonempty checked]
    refine ⟨_, Routine.proceed_pauses lookup rfl, ?_⟩
    cases taken : t.taken? job.caller (job.request.items.map (·.recordId)) with
    | some recordId =>
      exact .inr ⟨conflict recordId, fun _ => rfl, conflict_of_taken (taken?_eq_some taken).2⟩
    | none =>
      refine .inl ⟨(checkUpload_eq_ok.mp checked).2.1, ?_⟩
      intro u
      have insertion := execute_insertRecords (t := u) (s := { database := some u }) job.now proper.user
        hitems rfl rfl
      refine (Routine.proceed_goes_on insertion rfl).trans ?_
      cases u.insertRecords? job.caller job.now job.request.items with
      | none => rfl
      | some inserted => rfl
  · left
    refine ⟨conflict recordId, ?_, rfl, ?_⟩
    · unfold routine upload
      rw [hn, ownerFor_self proper.user, checked, nonempty]
      rfl
    · intro other hother
      cases hother
      exact .inr twice

theorem conflict_later {ds : List Deed} {e : VaultError} (h : job.Conflict t e) (later : Effect ds t u) :
    job.Conflict u e := by
  refine ⟨h.kind, ?_⟩
  intro recordId hid
  rcases h.named recordId hid with known | twice
  · left
    rw [Tables.find?_isSome_iff] at known ⊢
    rw [later.2, keys_performAll]
    exact List.mem_append_left _ known
  · exact .inr twice

end Job

namespace Race

variable {ι : Type} [DecidableEq ι] {jobs : ι → Job} {t₀ t u : Tables} {done : List (Move ι)} {w : Race ι}
  {inserted : List ι} {history : List Deed} {id : ι} {p : Progress}

def Stage (job : Job) (t : Tables) (steps : Nat) : Progress → Prop
  | .waiting pending rest => pending = none ∧
    (steps = 0 ∧ rest = job.routine ∨
      steps = 1 ∧ (job.Inserts rest ∨ ∃ e, Job.Refuses rest e ∧ job.Conflict t e))
  | .ended (.ok _) => True
  | .ended (.error e) => ∃ v, e = .vault v ∧ job.Conflict t v

/-- The moves that were made did nothing to the records but insert those of the uploads that succeeded, and write
to records that were there. -/
structure Sound (jobs : ι → Job) (t₀ : Tables) (done : List (Move ι)) (w : Race ι) (t : Tables)
    (inserted : List ι) (history : List Deed) : Prop where
  tables : w.database = some t
  effect : Effect history t₀ t
  creations : history.filter (·.act.isCreation) = inserted.flatMap fun id => (jobs id).deeds
  once : inserted.Nodup
  succeeded : ∀ id, id ∈ inserted ↔ (w.uploads id).Succeeded
  stages : ∀ id, Stage (jobs id) t (steps id done) (w.uploads id)

theorem stage_later {job : Job} {steps : Nat} {ds : List Deed} (h : Stage job t steps p) (later : Effect ds t u) :
    Stage job u steps p := by
  cases p with
  | waiting pending rest =>
    obtain ⟨hp, first | ⟨hs, inserts | ⟨e, he, hc⟩⟩⟩ := h
    · exact ⟨hp, .inl first⟩
    · exact ⟨hp, .inr ⟨hs, .inl inserts⟩⟩
    · exact ⟨hp, .inr ⟨hs, .inr ⟨e, he, Job.conflict_later hc later⟩⟩⟩
  | ended result =>
    cases result with
    | ok views => trivial
    | error e =>
      obtain ⟨v, hv, hc⟩ := h
      exact ⟨v, hv, Job.conflict_later hc later⟩

theorem stage_ended {job : Job} {result : Outcome (List RecordView)} {m : Nat}
    (h : Stage job t m (.ended result)) (n : Nat) : Stage job t n (.ended result) := by
  cases result with
  | ok views => trivial
  | error e => exact h

theorem steps_step (id other : ι) (done : List (Move ι)) :
    steps other (done ++ [.step id]) = steps other done + if other = id then 1 else 0 := by
  unfold steps
  rw [List.count_append, List.count_singleton]
  by_cases h : other = id
  · simp [h]
  · simp [h, Ne.symm h]

theorem stages_put (h : ∀ other, Stage (jobs other) t (steps other done) (w.uploads other))
    (stage : Stage (jobs id) t (steps id done + 1) p) (db : Database) (other : ι) :
    Stage (jobs other) t (steps other (done ++ [.step id])) ((w.put id p db).uploads other) := by
  rw [steps_step]
  by_cases hid : other = id
  · subst hid
    simpa [put] using stage
  · simpa [put, hid] using h other

theorem Sound.put (h : Sound jobs t₀ done w t inserted history) (before : ¬ (w.uploads id).Succeeded)
    (after : ¬ p.Succeeded) (stage : Stage (jobs id) t (steps id done + 1) p) :
    Sound jobs t₀ (done ++ [.step id]) (w.put id p (some t)) t inserted history := by
  refine ⟨rfl, h.effect, h.creations, h.once, ?_, stages_put h.stages stage _⟩
  intro other
  rw [h.succeeded other]
  by_cases hid : other = id
  · subst hid
    simp [Race.put, before, after]
  · simp [Race.put, hid]

theorem Sound.inserts (h : Sound jobs t₀ done w t inserted history) (before : ¬ (w.uploads id).Succeeded)
    {views : List RecordView} (effect : Effect (jobs id).deeds t u) :
    Sound jobs t₀ (done ++ [.step id]) (w.put id (.ended (.ok views)) (some u)) u (inserted ++ [id])
      (history ++ (jobs id).deeds) := by
  have new : id ∉ inserted := fun hid => before ((h.succeeded id).mp hid)
  constructor
  · rfl
  · exact effect_append h.effect effect
  · rw [List.filter_append, h.creations, Job.deeds, creations_upload, List.flatMap_append,
      List.flatMap_singleton, Job.deeds]
  · rw [List.nodup_append]
    refine ⟨h.once, List.pairwise_singleton _ _, ?_⟩
    intro i hi j hj
    rw [List.mem_singleton.mp hj]
    rintro rfl
    exact new hi
  · intro other
    rw [List.mem_append, List.mem_singleton, h.succeeded other]
    by_cases hid : other = id
    · simp [Race.put, hid, Progress.Succeeded]
    · simp [Race.put, hid]
  · exact stages_put (p := .ended (.ok views)) (fun other => stage_later (h.stages other) effect) trivial _

/-- What was found to be free may be taken by now, and then nothing is inserted. -/
theorem Sound.second_step (h : Sound jobs t₀ done w t inserted history) {rest : Routine (List RecordView)}
    (waiting : w.uploads id = .waiting none rest) (inserts : (jobs id).Inserts rest) :
    ∃ u inserted' history', Sound jobs t₀ (done ++ [.step id]) (w.step id) u inserted' history' := by
  have before : ¬ (w.uploads id).Succeeded := by
    rw [waiting]
    exact not_false
  have goes := inserts.inserts t
  unfold step
  rw [waiting, h.tables]
  simp only
  rw [goes]
  cases hins : t.insertRecords? (jobs id).caller (jobs id).now (jobs id).request.items with
  | none =>
    refine ⟨t, inserted, history, h.put before not_false ⟨_, rfl, rfl, ?_⟩⟩
    intro recordId hid
    cases hid
  | some done =>
    obtain ⟨free, hu⟩ := insertRecords?_eq_some hins
    refine ⟨done.2, inserted ++ [id], history ++ (jobs id).deeds, h.inserts before ?_⟩
    rw [hu]
    exact ⟨allEnabled_create inserts.nodup free, rfl⟩

theorem Sound.step (h : Sound jobs t₀ done w t inserted history) (proper : (jobs id).Proper) :
    ∃ u inserted' history', Sound jobs t₀ (done ++ [.step id]) (w.step id) u inserted' history' := by
  have stage := h.stages id
  cases hp : w.uploads id with
  | ended result =>
    rw [hp] at stage
    have still : w.step id = w := by
      unfold Race.step
      rw [hp]
    rw [still]
    refine ⟨t, inserted, history, h.tables, h.effect, h.creations, h.once, h.succeeded, ?_⟩
    intro other
    rw [steps_step]
    by_cases hid : other = id
    · subst hid
      rw [hp]
      exact stage_ended stage _
    · simpa [hid] using h.stages other
  | waiting pending rest =>
    have before : ¬ (w.uploads id).Succeeded := by
      rw [hp]
      exact not_false
    rw [hp] at stage
    obtain ⟨rfl, ⟨hs, rfl⟩ | ⟨hs, inserts | ⟨e, refuses, hc⟩⟩⟩ := stage
    · refine ⟨t, inserted, history, ?_⟩
      unfold Race.step
      rw [hp, h.tables]
      simp only
      rcases Job.first_step proper t with ⟨e, refused, hc⟩ | ⟨rest, paused, found⟩
      · rw [refused]
        exact h.put before not_false ⟨e, rfl, hc⟩
      · rw [paused]
        exact h.put before not_false ⟨rfl, .inr ⟨by rw [hs], found⟩⟩
    · exact h.second_step hp inserts
    · refine ⟨t, inserted, history, ?_⟩
      unfold Race.step
      rw [hp]
      simp only
      rw [refuses, h.tables]
      exact h.put before not_false ⟨e, rfl, hc⟩

/-- A batch that creates nothing does not change who succeeded. -/
theorem Sound.whole (h : Sound jobs t₀ done w t inserted history) {call : Call} {now : Int} {m : Move ι}
    (hm : ∀ id, m ≠ .step id) (quiet : (call.deeds now).filter (·.act.isCreation) = []) :
    ∃ u inserted' history', Sound jobs t₀ (done ++ [m]) (w.whole call now) u inserted' history' := by
  have untouched : ∀ id, steps id (done ++ [m]) = steps id done := by
    intro id
    simp [steps, List.count_append, hm id]
  unfold Race.whole
  rw [h.tables]
  split
  · rename_i answer s hx
    obtain ⟨u, hu, effect⟩ := (call.lands now).eval rfl rfl hx
    refine ⟨u, inserted, history ++ call.deeds now, hu, effect_append h.effect effect, ?_, h.once,
      h.succeeded, ?_⟩
    · rw [List.filter_append, h.creations, quiet, List.append_nil]
    · intro id
      rw [untouched]
      exact stage_later (h.stages id) effect
  · refine ⟨t, inserted, history, h.tables, h.effect, h.creations, h.once, h.succeeded, ?_⟩
    intro id
    rw [untouched]
    exact h.stages id

theorem Sound.next (h : Sound jobs t₀ done w t inserted history) (proper : ∀ id, (jobs id).Proper)
    (m : Move ι) : ∃ u inserted' history', Sound jobs t₀ (done ++ [m]) (w.next m) u inserted' history' := by
  cases m with
  | step id => exact h.step (proper id)
  | update caller now request =>
    apply h.whole
    · intro id hid
      cases hid
    · simp [Call.deeds, Deed.batch, Act.isCreation]
  | delete caller now request =>
    apply h.whole
    · intro id hid
      cases hid
    · simp [Call.deeds, Deed.batch, Act.isCreation]

theorem sound_start (jobs : ι → Job) (t₀ : Tables) :
    Sound jobs t₀ [] (start jobs (some t₀)) t₀ [] [] := by
  constructor
  · rfl
  · exact effect_refl t₀
  · rfl
  · exact List.nodup_nil
  · intro id
    simp [start, Progress.Succeeded]
  · intro id
    exact ⟨rfl, .inl ⟨rfl, rfl⟩⟩

theorem Sound.run (h : Sound jobs t₀ done w t inserted history) (proper : ∀ id, (jobs id).Proper)
    (moves : List (Move ι)) :
    ∃ u inserted' history', Sound jobs t₀ (done ++ moves) (w.run moves) u inserted' history' := by
  induction moves generalizing done w t inserted history with
  | nil =>
    rw [List.append_nil]
    exact ⟨t, inserted, history, h⟩
  | cons m rest ih =>
    obtain ⟨u, inserted', history', sound⟩ := h.next proper m
    have later := ih sound
    rwa [List.append_assoc, List.singleton_append] at later

/-- The uploads that succeeded inserted all their items, in this order, and the others nothing. -/
structure Safe (jobs : ι → Job) (t₀ : Tables) (w : Race ι) (t : Tables) (inserted : List ι) : Prop where
  tables : w.database = some t
  keys : t.records.map Record.key = t₀.records.map Record.key ++ inserted.flatMap fun id => (jobs id).keys
  /-- What is in the records is what the uploads brought, and what was written to them afterwards. -/
  contents : ∃ history, Effect history t₀ t ∧
    history.filter (·.act.isCreation) = inserted.flatMap fun id => (jobs id).deeds
  succeeded : ∀ id, id ∈ inserted ↔ ∃ views, w.uploads id = .ended (.ok views)
  failed : ∀ id e, w.uploads id = .ended (.error e) → ∃ v, e = .vault v ∧ (jobs id).Conflict t v
  once : inserted.Nodup
  apart : inserted.Pairwise fun i j => ∀ key ∈ (jobs i).keys, key ∉ (jobs j).keys

theorem succeeded_iff : p.Succeeded ↔ ∃ views, p = .ended (.ok views) := by
  cases p with
  | waiting pending rest => simp [Progress.Succeeded]
  | ended result =>
    cases result with
    | ok views => simp [Progress.Succeeded]
    | error e => simp [Progress.Succeeded]

theorem keys_deeds (job : Job) : job.deeds.map Deed.key = job.keys := by
  rw [Job.deeds, keys_batch (fun _ => rfl), Job.keys, Job.recordIds, List.map_map]
  rfl

theorem Sound.safe (h : Sound jobs t₀ done w t inserted history) : Safe jobs t₀ w t inserted := by
  have created : (history.filter (·.act.isCreation)).map Deed.key =
      inserted.flatMap fun id => (jobs id).keys := by
    rw [h.creations, List.map_flatMap]
    simp only [keys_deeds]
  constructor
  · exact h.tables
  · rw [h.effect.2, keys_performAll, created]
  · exact ⟨history, h.effect, h.creations⟩
  · intro id
    rw [h.succeeded, succeeded_iff]
  · intro id e he
    have stage := h.stages id
    rwa [he] at stage
  · exact h.once
  · have nodup := (nodup_creations h.effect.1).1
    rw [created] at nodup
    refine (List.pairwise_flatMap.mp nodup).2.imp ?_
    intro i j differ key hi hj
    exact differ key hi key hj rfl

/-- However the steps of uploads and the batches of others are interleaved, each upload has ended after two steps:
all its items were inserted, or none was and it is a conflict. -/
theorem racing_uploads_safe (proper : ∀ id, (jobs id).Proper) (t₀ : Tables) (moves : List (Move ι)) :
    let w := (start jobs (some t₀)).run moves
    (∃ t inserted, Safe jobs t₀ w t inserted) ∧
      ∀ id, 2 ≤ steps id moves → ∃ result, w.uploads id = .ended result := by
  intro w
  obtain ⟨t, inserted, history, sound⟩ := (sound_start jobs t₀).run proper moves
  refine ⟨⟨t, inserted, sound.safe⟩, ?_⟩
  intro id enough
  have stage := sound.stages id
  cases hp : w.uploads id with
  | ended result => exact ⟨result, rfl⟩
  | waiting pending rest =>
    rw [hp, List.nil_append] at stage
    obtain ⟨_, ⟨hs, _⟩ | ⟨hs, _⟩⟩ := stage
    · omega
    · omega

/-- What a call comes to in the midst of others is what its two steps come to. -/
theorem run_takes_two_steps {ρ : Type} {around : Surroundings ρ} {job : Job} (proper : job.Proper)
    (unbroken : ∀ done, around.breaks done = none) (unstopped : ∀ done, around.stops done = none)
    (turns : ∀ done db writing, (around.others done db writing).database = some u) :
    let found := (start (fun _ : Unit => job) (some t)).step ()
    let inserted := { found with database := some u }.step ()
    inserted.uploads () = .ended (job.routine.run around 0 { database := some t }).result := by
  intro found inserted
  rcases Job.first_step proper t with ⟨e, refused, _⟩ | ⟨rest, paused, later⟩
  · have first : found.uploads () = .ended (.error (.vault e)) := by
      simp [found, start, step, refused, put]
    rw [(Routine.run_ended unbroken refused 0).1]
    simp [inserted, step, first]
  · have first : found.uploads () = .waiting none rest := by
      simp [found, start, step, paused, put]
    obtain ⟨done, result, _⟩ := Routine.run_paused unbroken unstopped paused 0
    rw [result, turns]
    obtain ⟨outcome, s, second⟩ : ∃ outcome s, rest.proceed { database := some u } = .ended outcome s := by
      rcases later with inserts | ⟨e, refuses, _⟩
      · rw [inserts.inserts u]
        cases u.insertRecords? job.caller job.now job.request.items with
        | none => exact ⟨_, _, rfl⟩
        | some rows => exact ⟨_, _, rfl⟩
      · exact ⟨_, _, refuses _⟩
    rw [(Routine.run_ended unbroken second done).1]
    simp [inserted, step, first, second, put]

def sampleJob : Job := ⟨1, 0, { userId := some 1, items := [⟨[97], [120], [121]⟩] }⟩

theorem sampleJob_proper : sampleJob.Proper := by
  refine ⟨⟨by decide, by decide⟩, rfl, rfl, List.cons_ne_nil _ _, ?_⟩
  intro item hi
  obtain rfl := List.mem_singleton.mp hi
  exact ⟨by decide, by decide, by decide⟩

/-- Both look the id up before either inserts it, and the record is deleted before the second tries. -/
def sampleMoves : List (Move (Fin 2)) :=
  [.step 0, .step 1, .step 0, .delete 1 1 { userId := some 1, entries := [⟨[97], some 0⟩] }, .step 1]

theorem sample_race_safe :
    let w := (start (fun _ : Fin 2 => sampleJob) (some {})).run sampleMoves
    ((∃ t inserted, Safe (fun _ => sampleJob) {} w t inserted) ∧
      ∀ id, 2 ≤ steps id sampleMoves → ∃ result, w.uploads id = .ended result) ∧
    (∃ views, w.uploads 0 = .ended (.ok views)) ∧
    w.uploads 1 = .ended (.error (.vault (.of .uniquenessConflict))) :=
  ⟨racing_uploads_safe (fun _ => sampleJob_proper) {} sampleMoves, ⟨_, rfl⟩, rfl⟩

end Race

end Strongbox.Vault
