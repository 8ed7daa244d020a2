import Strongbox.Proofs.Vault.Effects
import Strongbox.Store.Database

/-!
# Calls at the same time

Any number of calls are on their way at once, and any of them may run its next statement, or be stopped.
The call that wrote first keeps the others from writing until it ends. The calls that end well do their deeds
one call after the other, in the order in which they end.
-/

namespace Strongbox.Vault

open Store

structure Flight where
  call : Call
  now : Int
  rest : Routine Answer

/-- What is said of a call that began at some point in time and ends well: its answer, the tables that its first
write finds, and those that it commits. -/
abbrev Conduct := Call → Int → Answer → Tables → Tables → Prop

def Conduct.Holds (conduct : Conduct) : Prop :=
  ∀ (call : Call) (now : Int), (call.routine now).LandsAs (conduct call now)

/-- The transaction is that of the one call that may be writing. The calls that ended well are kept with
their times, in the order in which they did. -/
structure World where
  database : Database
  transaction : Option (Nat × Tables) := none
  flights : Nat → Option Flight := fun _ => none
  accepted : List (Call × Int) := []

inductive Event where
  | start (id : Nat) (call : Call) (now : Int)
  | advance (id : Nat)
  | stop (id : Nat)
  deriving DecidableEq, Repr

namespace World

def pendingOf (w : World) (id : Nat) : Option Tables :=
  match w.transaction with
  | some (writer, t) => if writer = id then some t else none
  | none => none

def session (w : World) (id : Nat) : Session :=
  { database := w.database
    pending := w.pendingOf id
    locked := w.transaction.isSome && (w.pendingOf id).isNone }

def put (w : World) (id : Nat) (flight : Option Flight) : World :=
  { w with flights := fun other => if other = id then flight else w.flights other }

def leave (w : World) (id : Nat) : World :=
  { w.put id none with transaction := if (w.pendingOf id).isSome then none else w.transaction }

/-- A call does what comes next: it gives a notice, runs a statement, or ends. -/
def advance (w : World) (id : Nat) (f : Flight) : World :=
  match f.rest with
  | .finish (.ok _) =>
    { w.leave id with
      database := (w.session id).committed
      accepted := w.accepted ++ [(f.call, f.now)] }
  | .finish (.error _) => w.leave id
  | .note _ rest => w.put id (some { f with rest })
  | .execute statement rest =>
    match (w.session id).execute statement with
    | .error _ => w.leave id
    | .ok (reply, s) =>
      { w.put id (some { f with rest := rest reply }) with
        transaction := match s.pending with
          | some t => some (id, t)
          | none => w.transaction }

def next (w : World) : Event → World
  | .start id call now =>
    if (w.flights id).isSome then w else w.put id (some ⟨call, now, call.routine now⟩)
  | .advance id =>
    match w.flights id with
    | some f => w.advance id f
    | none => w
  | .stop id => w.leave id

def run (w : World) (events : List Event) : World := events.foldl next w

def history (w : World) : List Deed := w.accepted.flatMap fun (call, now) => call.deeds now

/-- Before its first write a call will do as is said of it on whatever tables it finds then; afterwards it will do
so on those of the database. -/
def Owes (conduct : Conduct) (w : World) (id : Nat) (f : Flight) : Prop :=
  match w.pendingOf id with
  | none => f.rest.LandsAs (conduct f.call f.now)
  | some t' => ∃ t, w.database = some t ∧
    f.rest.DeliversAs (conduct f.call f.now) t { database := some t, pending := some t' }

structure Sound (conduct : Conduct) (w : World) : Prop where
  stored : ∃ t, w.database = some t
  owed : ∀ id f, w.flights id = some f → w.Owes conduct id f
  writer : ∀ id, (w.pendingOf id).isSome → (w.flights id).isSome

/-- The call goes on as `f`, with the transaction of its session. -/
def goOn (w : World) (id : Nat) (f : Flight) (s : Session) : World :=
  { w.put id (some f) with
    transaction := match s.pending with
      | some t => some (id, t)
      | none => w.transaction }

def commit (w : World) (id : Nat) (f : Flight) : World :=
  { w.leave id with
    database := (w.session id).committed
    accepted := w.accepted ++ [(f.call, f.now)] }

/-- All that an event can do. -/
inductive Step (w : World) : Event → World → Prop where
  | idle (e : Event) : Step w e w
  | start {id : Nat} (free : w.flights id = none) (call : Call) (now : Int) :
      Step w (.start id call now) (w.put id (some ⟨call, now, call.routine now⟩))
  | leave (e : Event) (id : Nat) : Step w e (w.leave id)
  | note {id : Nat} {f : Flight} {n : Log.Notice} {rest : Routine Answer} (hf : w.flights id = some f)
      (hrest : f.rest = .note n rest) : Step w (.advance id) (w.put id (some { f with rest }))
  | execute {β : Type} {id : Nat} {f : Flight} {st : Statement β} {rest : β → Routine Answer} {reply : β} {s : Session}
      (hf : w.flights id = some f) (hrest : f.rest = .execute st rest) (hx : (w.session id).execute st = .ok (reply, s)) :
      Step w (.advance id) (w.goOn id { f with rest := rest reply } s)
  | commit {id : Nat} {f : Flight} {answer : Answer} (hf : w.flights id = some f)
      (hrest : f.rest = .finish (.ok answer)) : Step w (.advance id) (w.commit id f)

inductive Commits (conduct : Conduct) (w v : World) : Prop where
  | nothing (database : v.database = w.database) (accepted : v.accepted = w.accepted)
  | call {id : Nat} {f : Flight} {answer : Answer} {t u : Tables} (flight : w.flights id = some f)
    (found : w.database = some t) (left : v.database = some u) (accepted : v.accepted = w.accepted ++ [(f.call, f.now)])
    (conducted : conduct f.call f.now answer t u)

variable {w v : World} {e : Event} {id other : Nat} {f : Flight} {conduct : Conduct}

theorem step_advance (hf : w.flights id = some f) : w.Step (.advance id) (w.advance id f) := by
  cases hrest : f.rest with
  | finish result =>
    cases result with
    | ok answer =>
      simp only [advance, hrest]
      exact .commit hf hrest
    | error e =>
      simp only [advance, hrest]
      exact .leave _ id
  | note n rest =>
    simp only [advance, hrest]
    exact .note hf hrest
  | execute st rest =>
    simp only [advance, hrest]
    cases hx : (w.session id).execute st with
    | error e => exact .leave _ id
    | ok reply => exact .execute hf hrest hx

theorem step_next (w : World) (e : Event) : w.Step e (w.next e) := by
  cases e with
  | start id call now =>
    simp only [next]
    split
    · exact .idle _
    · rename_i free
      exact .start (by simpa using free) call now
  | advance id =>
    simp only [next]
    split
    · rename_i f hf
      exact step_advance hf
    · exact .idle _
  | stop id => exact .leave _ id

theorem pendingOf_eq_some {t : Tables} : w.pendingOf id = some t ↔ w.transaction = some (id, t) := by
  unfold pendingOf
  cases h : w.transaction with
  | none => simp
  | some p =>
    obtain ⟨writer, u⟩ := p
    by_cases hw : writer = id
    · simp [hw]
    · simp [hw]

theorem pendingOf_congr {v : World} (h : v.transaction = w.transaction) (id : Nat) :
    v.pendingOf id = w.pendingOf id := by
  unfold pendingOf
  rw [h]

/-- While one call writes, no other does. -/
theorem pendingOf_other {t : Tables} (h : w.pendingOf id = some t) (hne : other ≠ id) :
    w.pendingOf other = none := by
  unfold pendingOf
  rw [pendingOf_eq_some.mp h]
  simp [Ne.symm hne]

theorem pendingOf_eq_none (h : w.transaction = none) : w.pendingOf id = none := by
  unfold pendingOf
  rw [h]

theorem pendingOf_leave (hne : other ≠ id) : (w.leave id).pendingOf other = w.pendingOf other := by
  cases h : w.pendingOf id with
  | none => exact pendingOf_congr (by simp [leave, h, put]) other
  | some t =>
    rw [pendingOf_other h hne]
    exact pendingOf_eq_none (by simp [leave, h])

theorem pendingOf_leave_self : (w.leave id).pendingOf id = none := by
  cases h : w.pendingOf id with
  | none => exact (pendingOf_congr (by simp [leave, h, put]) id).trans h
  | some t => exact pendingOf_eq_none (by simp [leave, h])

/-- Only a writer's dues have to do with the database. -/
theorem owes_congr {v : World} (hp : v.pendingOf id = w.pendingOf id)
    (hd : (w.pendingOf id).isSome → v.database = w.database) (h : w.Owes conduct id f) : v.Owes conduct id f := by
  unfold Owes at h ⊢
  rw [hp]
  cases hw : w.pendingOf id with
  | none =>
    rw [hw] at h
    exact h
  | some t' =>
    rw [hw] at h
    rw [hd (by simp [hw])]
    exact h

theorem sound_of_step {v : World} (id : Nat) (h : w.Sound conduct) (stored : ∃ t, v.database = some t)
    (others : ∀ other, other ≠ id → v.flights other = w.flights other ∧
      v.pendingOf other = w.pendingOf other ∧
        ((w.pendingOf other).isSome → v.database = w.database))
    (owed : ∀ f, v.flights id = some f → v.Owes conduct id f)
    (writer : (v.pendingOf id).isSome → (v.flights id).isSome) : v.Sound conduct := by
  refine ⟨stored, fun other f hf => ?_, fun other hw => ?_⟩
  · by_cases hid : other = id
    · subst hid
      exact owed f hf
    · obtain ⟨hs, hp, hd⟩ := others other hid
      exact owes_congr hp hd (h.owed other f (hs ▸ hf))
  · by_cases hid : other = id
    · subst hid
      exact writer hw
    · obtain ⟨hs, hp, _⟩ := others other hid
      rw [hs]
      exact h.writer other (hp ▸ hw)

theorem sound_leave (h : w.Sound conduct) (id : Nat) : (w.leave id).Sound conduct := by
  refine sound_of_step id h h.stored (fun other hne => ⟨?_, pendingOf_leave hne, fun _ => rfl⟩)
    (fun f hf => ?_) (fun hw => ?_)
  · simp [leave, put, hne]
  · simp [leave, put] at hf
  · simp [pendingOf_leave_self] at hw

theorem sound_put (h : w.Sound conduct) (f : Flight) (hf : w.Owes conduct id f) : (w.put id (some f)).Sound conduct := by
  refine sound_of_step id h h.stored (fun other hne => ⟨?_, rfl, fun _ => rfl⟩)
    (fun g hg => ?_) (fun _ => ?_)
  · simp [put, hne]
  · simp only [put, if_true] at hg
    cases hg
    exact hf
  · simp [put]

theorem conducted_of_finished {result : Answer} (h : w.Sound conduct) (hf : w.flights id = some f)
    (hrest : f.rest = .finish (.ok result)) :
    ∃ t u, w.database = some t ∧ (w.session id).committed = some u ∧ conduct f.call f.now result t u := by
  have howed := h.owed id f hf
  obtain ⟨t, ht⟩ := h.stored
  unfold Owes at howed
  rw [hrest] at howed
  cases hp : w.pendingOf id with
  | none =>
    rw [hp] at howed
    exact ⟨t, t, ht, by simp [Session.committed, Session.visible, session, hp, ht], howed t⟩
  | some t' =>
    rw [hp] at howed
    obtain ⟨t, ht, hd⟩ := howed
    obtain ⟨u, hu, he⟩ := hd result _ rfl
    cases hu
    exact ⟨t, t', ht, by simp [Session.committed, Session.visible, session, hp], he⟩

theorem sound_commit {result : Answer} (h : w.Sound conduct) (hf : w.flights id = some f)
    (hrest : f.rest = .finish (.ok result)) : (w.commit id f).Sound conduct := by
  obtain ⟨t, u, ht, hu, _⟩ := conducted_of_finished h hf hrest
  refine sound_of_step id h ⟨u, hu⟩ (fun other hne => ⟨?_, pendingOf_leave hne, fun hw => ?_⟩)
    (fun f hf => ?_) (fun hw => ?_)
  · simp [commit, leave, put, hne]
  · obtain ⟨_, hp⟩ := Option.isSome_iff_exists.mp hw
    simp [commit, Session.committed, Session.visible, session, pendingOf_other hp (Ne.symm hne)]
  · simp [commit, leave, put] at hf
  · have hw : ((w.leave id).pendingOf id).isSome := hw
    rw [pendingOf_leave_self] at hw
    cases hw

theorem sound_write {t t' : Tables} (h : w.Sound conduct)
    (hw : w.transaction = none ∨ ∃ u, w.transaction = some (id, u)) (hd : w.database = some t)
    (hf : f.rest.DeliversAs (conduct f.call f.now) t { database := some t, pending := some t' }) :
    ({ w.put id (some f) with transaction := some (id, t') }).Sound conduct := by
  have own : ({ w.put id (some f) with transaction := some (id, t') } : World).pendingOf id = some t' :=
    pendingOf_eq_some.mpr rfl
  refine sound_of_step id h h.stored (fun other hne => ⟨?_, ?_, fun _ => rfl⟩)
    (fun g hg => ?_) (fun _ => ?_)
  · simp [put, hne]
  · rw [pendingOf_other own hne]
    rcases hw with hw | ⟨u, hw⟩
    · exact (pendingOf_eq_none hw).symm
    · exact (pendingOf_other (pendingOf_eq_some.mpr hw) hne).symm
  · simp only [put, if_true] at hg
    cases hg
    unfold Owes
    rw [own]
    exact ⟨t, hd, hf⟩
  · simp [put]

theorem sound_execute {st : Statement β} {rest : β → Routine Answer} {reply : β} {s : Session}
    (h : w.Sound conduct) (hf : w.flights id = some f) (hrest : f.rest = .execute st rest)
    (hx : (w.session id).execute st = .ok (reply, s)) : (w.goOn id { f with rest := rest reply } s).Sound conduct := by
  have howed := h.owed id f hf
  unfold Owes at howed
  rw [hrest] at howed
  obtain ⟨t, t', hv, hrun, hs⟩ := execute_eq_ok hx
  cases hp : w.pendingOf id with
  | some t₀ =>
    rw [hp] at howed
    obtain ⟨u, hu, hd⟩ := howed
    have hsession : w.session id = { database := some u, pending := some t₀ } := by
      simp [session, hp, hu]
    rw [hsession] at hx hs
    have hrest := Routine.deliversAs_execute hd hx
    rcases hs with ⟨_, rfl⟩ | ⟨_, _, rfl⟩
    · exact sound_write h (.inr ⟨t₀, pendingOf_eq_some.mp hp⟩) hu hrest
    · exact sound_write h (.inr ⟨t₀, pendingOf_eq_some.mp hp⟩) hu hrest
  | none =>
    rw [hp] at howed
    have hd : w.database = some t := by
      simpa [Session.visible, session, hp] using hv
    have hlands := howed t reply t' hrun
    rcases hs with ⟨hw, rfl⟩ | ⟨hw, hl, rfl⟩
    · simp only [hw, Bool.false_eq_true, if_false] at hlands
      simp only [goOn, session, hp]
      refine sound_put h _ ?_
      unfold Owes
      rw [hp]
      exact hlands
    · simp only [hw, if_true] at hlands
      have hnone : w.transaction = none := by
        simpa [session, hp] using hl
      exact sound_write h (.inl hnone) hd hlands

theorem sound_start (holds : conduct.Holds) (h : w.Sound conduct) (hf : w.flights id = none) (call : Call) (now : Int) :
    (w.put id (some ⟨call, now, call.routine now⟩)).Sound conduct := by
  have hp : w.pendingOf id = none := by
    cases hp : w.pendingOf id with
    | none => rfl
    | some t =>
      have := h.writer id (by simp [hp])
      simp [hf] at this
  refine sound_put h _ ?_
  unfold Owes
  rw [hp]
  exact holds call now

theorem Step.sound (step : w.Step e v) (holds : conduct.Holds) (h : w.Sound conduct) : v.Sound conduct := by
  cases step with
  | idle => exact h
  | start free call now => exact sound_start holds h free call now
  | leave _ id => exact sound_leave h id
  | note hf hrest =>
    have howed := h.owed _ _ hf
    refine sound_put h _ ?_
    unfold Owes at howed ⊢
    rw [hrest] at howed
    exact howed
  | execute hf hrest hx => exact sound_execute h hf hrest hx
  | commit hf hrest => exact sound_commit h hf hrest

theorem sound_run (holds : conduct.Holds) (h : w.Sound conduct) (events : List Event) : (w.run events).Sound conduct := by
  induction events generalizing w with
  | nil => exact h
  | cons e rest ih => exact ih ((step_next w e).sound holds h)

theorem sound_initial (conduct : Conduct) (t : Tables) : World.Sound conduct { database := some t } where
  stored := ⟨t, rfl⟩
  owed := fun _ _ hf => nomatch hf
  writer := fun _ hw => nomatch hw

theorem Step.commits (step : w.Step e v) (h : w.Sound conduct) : w.Commits conduct v := by
  cases step with
  | commit hf hrest =>
    obtain ⟨t, u, found, left, conducted⟩ := conducted_of_finished h hf hrest
    exact .call hf found left rfl conducted
  | _ => exact .nothing rfl rfl

theorem flights_put {flight : Option Flight} {g : Flight} (hg : (w.put id flight).flights other = some g) :
    flight = some g ∧ other = id ∨ w.flights other = some g := by
  by_cases hid : other = id
  · simp only [put, hid, if_true] at hg
    exact .inl ⟨hg, hid⟩
  · simp only [put, hid, if_false] at hg
    exact .inr hg

theorem flights_leave {g : Flight} (hg : (w.leave id).flights other = some g) : w.flights other = some g := by
  have gone : (w.put id none).flights other = some g := hg
  rcases flights_put gone with ⟨none, _⟩ | before
  · cases none
  · exact before

/-- Calls on their way were so before, or have just started. -/
theorem Step.flights {g : Flight} (step : w.Step e v) (hg : v.flights id = some g) :
    (∃ f, w.flights id = some f ∧ g.call = f.call ∧ g.now = f.now) ∨ e = .start id g.call g.now := by
  -- a call that goes on is the same call
  have moved {other : Nat} {f : Flight} {rest : Routine Answer} (hf : w.flights other = some f)
      (hg : (w.put other (some { f with rest })).flights id = some g) :
      ∃ f, w.flights id = some f ∧ g.call = f.call ∧ g.now = f.now := by
    rcases flights_put hg with ⟨same, rfl⟩ | before
    · cases same
      exact ⟨f, hf, rfl, rfl⟩
    · exact ⟨g, before, rfl, rfl⟩
  cases step with
  | idle => exact .inl ⟨g, hg, rfl, rfl⟩
  | start free call now =>
    rcases flights_put hg with ⟨same, rfl⟩ | before
    · cases same
      exact .inr rfl
    · exact .inl ⟨g, before, rfl, rfl⟩
  | leave _ other => exact .inl ⟨g, flights_leave hg, rfl, rfl⟩
  | note hf hrest => exact .inl (moved hf hg)
  | execute hf hrest hx => exact .inl (moved hf hg)
  | commit hf hrest => exact .inl ⟨g, flights_leave hg, rfl, rfl⟩

/-- What every committed call preserves holds in all later worlds. -/
theorem invariant_run {I : List (Call × Int) → Tables → Prop} (holds : conduct.Holds)
    (keeps : ∀ done call now answer t u, I done t → conduct call now answer t u → I (done ++ [(call, now)]) u)
    (h : w.Sound conduct) {t : Tables} (hd : w.database = some t) (start : I w.accepted t) (events : List Event) :
    ∃ u, (w.run events).database = some u ∧ I (w.run events).accepted u := by
  induction events generalizing w t with
  | nil => exact ⟨t, hd, start⟩
  | cons e rest ih =>
    rcases (step_next w e).commits h with ⟨database, accepted⟩ | ⟨_, found, left, accepted, conducted⟩
    · exact ih ((step_next w e).sound holds h) (database.trans hd) (accepted ▸ start)
    · cases hd.symm.trans found
      have kept := keeps _ _ _ _ _ _ start conducted
      exact ih ((step_next w e).sound holds h) left (accepted ▸ kept)

/-- However the calls are interleaved, the records are those that the deeds of the accepted calls make of the
first ones, one call after the other, and each of these deeds was enabled when its turn came. -/
theorem run_effect (t : Tables) (events : List Event) :
    ∃ u, (World.run { database := some t } events).database = some u ∧
      Effect (World.run { database := some t } events).history t u := by
  let conduct : Conduct := fun call now _ => Effect (call.deeds now)
  have holds : conduct.Holds := fun call now => call.lands now
  let I : List (Call × Int) → Tables → Prop := fun done u => Effect (World.history { database := some u, accepted := done }) t u
  refine invariant_run (I := I) holds ?_ (sound_initial conduct t) rfl (effect_refl t) events
  intro done call now answer s u effect conducted
  have both := effect_append effect conducted
  simpa [I, history] using both

theorem run_append (w : World) (events later : List Event) : w.run (events ++ later) = (w.run events).run later :=
  List.foldl_append

/-- What was accepted stays so. -/
theorem Step.accepted (step : w.Step e v) : w.accepted <+: v.accepted := by
  cases step with
  | commit hf hrest => exact List.prefix_append _ _
  | _ => exact List.prefix_refl _

theorem accepted_run (w : World) (events : List Event) : w.accepted <+: (w.run events).accepted := by
  induction events generalizing w with
  | nil => exact List.prefix_refl _
  | cons e rest ih => exact (step_next w e).accepted.trans (ih (w.next e))

/-- What is accepted was at its end before. -/
theorem Step.accepted_cases {p : Call × Int} (step : w.Step e v) (hp : p ∈ v.accepted) : p ∈ w.accepted ∨
    ∃ id answer, e = .advance id ∧ w.flights id = some ⟨p.1, p.2, .finish (.ok answer)⟩ := by
  cases step with
  | commit hf hrest =>
    rcases List.mem_append.mp hp with before | last
    · exact .inl before
    · rw [List.mem_singleton.mp last]
      exact .inr ⟨_, _, rfl, by rw [hf, ← hrest]⟩
  | _ => exact .inl hp

theorem accepted_run_cases {events : List Event} {p : Call × Int} (hp : p ∈ (w.run events).accepted) : p ∈ w.accepted ∨
    ∃ before id answer later, events = before ++ .advance id :: later ∧
      (w.run before).flights id = some ⟨p.1, p.2, .finish (.ok answer)⟩ := by
  induction events generalizing w with
  | nil => exact .inl hp
  | cons e rest ih =>
    rcases ih hp with here | ⟨before, id, answer, later, rfl, flight⟩
    · rcases (step_next w e).accepted_cases here with already | ⟨id, answer, rfl, flight⟩
      · exact .inl already
      · exact .inr ⟨[], id, answer, rest, rfl, flight⟩
    · exact .inr ⟨e :: before, id, answer, later, rfl, flight⟩

theorem history_run (w : World) (events : List Event) : ∃ more, (w.run events).history = w.history ++ more := by
  obtain ⟨more, hmore⟩ := accepted_run w events
  exact ⟨more.flatMap fun (call, now) => call.deeds now, by simp [history, ← hmore]⟩

/-- From the tables of one moment to those of a later one, the deeds that were accepted in between are done. -/
theorem run_later (t : Tables) (events later : List Event) {u : Tables}
    (hu : (World.run { database := some t } events).database = some u) :
    let w := World.run { database := some t } events
    ∃ more u', (w.run later).history = w.history ++ more ∧ (w.run later).database = some u' ∧
      Effect more u u' := by
  intro w
  obtain ⟨more, hmore⟩ := history_run w later
  obtain ⟨v, hv, _, hrecords⟩ := run_effect t events
  obtain ⟨u', hu', henabled', hrecords'⟩ := run_effect t (events ++ later)
  rw [run_append] at hu' henabled' hrecords'
  change (w.run later).database = some u' at hu'
  rw [hmore] at henabled' hrecords'
  cases hu.symm.trans hv
  refine ⟨more, u', hmore, hu', ?_, ?_⟩
  · rw [hrecords]
    exact (Deed.allEnabled_append.mp henabled').2
  · rw [hrecords', hrecords]
    exact Deed.performAll_append _ _ _

theorem session_execute {st : Statement β} {reply : β} {s : Session} (flight : Flight)
    (hl : (w.session id).locked = false) (hx : (w.session id).execute st = .ok (reply, s)) :
    (w.goOn id flight s).session id = s := by
  have hd : s.database = w.database := execute_database hx
  obtain ⟨_, t', _, _, hs⟩ := execute_eq_ok hx
  cases hp : s.pending with
  | some t =>
    have own : ({ w.put id (some flight) with transaction := some (id, t) } : World).pendingOf id = some t :=
      pendingOf_eq_some.mpr rfl
    have hlocked : s.locked = false := by
      rcases hs with ⟨_, rfl⟩ | ⟨_, _, rfl⟩
      · exact hl
      · exact hl
    simp only [goOn, hp, session, own]
    cases s
    cases hp
    cases hlocked
    cases hd
    rfl
  | none =>
    rcases hs with ⟨_, rfl⟩ | ⟨_, _, rfl⟩
    · simp only [goOn, hp]
      rfl
    · cases hp

/-- Some call can be stopped so that nobody is writing. -/
theorem leave_writer (w : World) : ∃ id, (w.leave id).transaction = none := by
  cases h : w.transaction with
  | none =>
    refine ⟨0, ?_⟩
    simp [leave, h]
  | some p =>
    obtain ⟨writer, t⟩ := p
    have own : w.pendingOf writer = some t := pendingOf_eq_some.mpr h
    refine ⟨writer, ?_⟩
    simp [leave, own]

theorem run_advance (hf : w.flights id = some f) (n : Nat) :
    w.run (List.replicate (n + 1) (.advance id)) =
      (w.advance id f).run (List.replicate n (.advance id)) := by
  simp [run, List.replicate_succ, next, hf]

/-- A call that is left alone while it may write comes to what it does by itself, and only has to be committed. -/
theorem advance_alone {call : Call} {now : Int} {r : Routine Answer} {answer : Answer} {left : Session}
    (hf : w.flights id = some ⟨call, now, r⟩) (hl : (w.session id).locked = false)
    (hx : r.eval (w.session id) = .ok (answer, left)) :
    ∃ n, (w.run (List.replicate n (.advance id))).flights id = some ⟨call, now, .finish (.ok answer)⟩ ∧
      (w.run (List.replicate n (.advance id))).session id = left ∧
      (w.run (List.replicate n (.advance id))).accepted = w.accepted := by
  induction r generalizing w with
  | finish result =>
    cases result with
    | ok x =>
      cases hx
      exact ⟨0, hf, rfl, rfl⟩
    | error e => cases hx
  | note n rest ih =>
    obtain ⟨k, hk⟩ := ih (w := w.put id (some ⟨call, now, rest⟩)) (by simp [put]) hl hx
    refine ⟨k + 1, ?_⟩
    rw [run_advance hf]
    exact hk
  | execute st rest ih =>
    simp only [Routine.eval] at hx
    cases hs : (w.session id).execute st with
    | error e =>
      rw [hs] at hx
      cases hx
    | ok reply =>
      obtain ⟨reply, s⟩ := reply
      rw [hs] at hx
      have after := session_execute ⟨call, now, rest reply⟩ hl hs
      have hlocked : s.locked = false := by
        obtain ⟨_, _, _, _, ⟨_, rfl⟩ | ⟨_, _, rfl⟩⟩ := execute_eq_ok hs
        · exact hl
        · exact hl
      have hf' : (w.goOn id ⟨call, now, rest reply⟩ s).flights id = some ⟨call, now, rest reply⟩ := by
        simp [goOn, put]
      obtain ⟨k, hk⟩ := ih reply hf' (by rw [after]; exact hlocked) (by rw [after]; exact hx)
      refine ⟨k + 1, ?_⟩
      rw [run_advance hf]
      simp only [advance, hs]
      exact hk

/-- What a call that has come to its end commits. -/
theorem next_finished {answer : Answer} (hf : w.flights id = some f) (hrest : f.rest = .finish (.ok answer)) :
    (w.next (.advance id)).database = (w.session id).committed ∧
      (w.next (.advance id)).accepted = w.accepted ++ [(f.call, f.now)] := by
  have step : w.next (.advance id) = w.advance id f := by simp only [next, hf]
  rw [step, advance, hrest]
  exact ⟨rfl, rfl⟩

/-- In every world a call can be made alone, once the others are out of its way. -/
theorem run_call {call : Call} {now : Int} {answer : Answer} {left : Session}
    (hx : (call.routine now).eval { database := w.database } = .ok (answer, left)) :
    ∃ events id, (w.run events).flights id = some ⟨call, now, .finish (.ok answer)⟩ ∧
      ((w.run events).next (.advance id)).database = left.committed ∧
      ((w.run events).next (.advance id)).accepted = w.accepted ++ [(call, now)] := by
  obtain ⟨writer, quiet⟩ := w.leave_writer
  let clear : List Event := [.stop writer, .stop 0, .start 0 call now]
  have cleared : w.run clear = ((w.leave writer).leave 0).put 0 (some ⟨call, now, call.routine now⟩) := by
    have gone : ((w.leave writer).leave 0).flights 0 = none := by simp [leave, put]
    simp only [clear, run, List.foldl_cons, List.foldl_nil, next, gone, Option.isSome_none, Bool.false_eq_true, if_false]
  have flight : (w.run clear).flights 0 = some ⟨call, now, call.routine now⟩ := by
    rw [cleared]
    simp [put]
  have free : (w.run clear).transaction = none := by
    rw [cleared]
    exact ite_eq_left_iff.mpr fun _ => quiet
  have session : (w.run clear).session 0 = { database := w.database } := by
    rw [World.session, free, pendingOf_eq_none free, cleared]
    rfl
  rw [← session] at hx
  obtain ⟨n, ended, left, accepted⟩ := advance_alone flight (by rw [session]) hx
  rw [← run_append] at ended left accepted
  obtain ⟨committed, done⟩ := next_finished ended rfl
  refine ⟨clear ++ List.replicate n (.advance 0), 0, ended, ?_, ?_⟩
  · rw [committed, left]
  · rw [done, accepted, cleared]
    rfl

end World

end Strongbox.Vault
